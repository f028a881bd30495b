import Mathlib.Data.List.Induction
import Mathlib.Tactic.SplitIfs
import StackAsm.Settings.Basic

set_option autoImplicit false

namespace StackAsm

def last? {α κ β : Type} [DecidableEq κ] (key : α → κ) (value : α → β) (k : κ) (xs : List α) :
    Option β :=
  (xs.filter fun x => key x = k).getLast?.map value

section Last

variable {α κ β : Type} [DecidableEq κ] (key : α → κ) (value : α → β) (k : κ)

theorem last?_concat (xs : List α) (x : α) : last? key value k (xs ++ [x]) =
    if key x = k then some (value x) else last? key value k xs := by
  by_cases same : key x = k <;> simp [last?, List.filter_append, same]

theorem last?_eq_none {xs : List α} (absent : ∀ x ∈ xs, key x ≠ k) :
    last? key value k xs = none := by
  have empty : (xs.filter fun x => key x = k) = [] := by
    rw [List.filter_eq_nil_iff]
    intro x member
    simpa using absent x member
  rw [last?, empty, List.getLast?_nil, Option.map_none]

-- Where a step takes over the values for a key, a fold ends with the last of them.
theorem view_foldl {σ γ : Type} (step : σ → α → σ) (view : σ → γ) (read : β → γ)
    (steps : ∀ s x, view (step s x) = if key x = k then read (value x) else view s) (s : σ)
    (xs : List α) : view (xs.foldl step s) = ((last? key value k xs).map read).getD (view s) := by
  induction xs using List.reverseRecOn with
  | nil => rfl
  | append_singleton xs x ih =>
    rw [List.foldl_append, List.foldl_cons, List.foldl_nil, steps, last?_concat, ih]
    split <;> rfl

end Last

namespace Settings

inductive Value where
  | text (bs : Bytes)
  | switch (on : Bool)
  deriving DecidableEq, Repr

inductive Key where
  | output
  | strict
  | extended
  | labels
  | verbose
  deriving DecidableEq, Repr

def Key.name : Key → Bytes
  | .output => utf8 "output"
  | .strict => utf8 "strict"
  | .extended => utf8 "extended"
  | .labels => utf8 "labels"
  | .verbose => utf8 "verbose"

def Key.default : Key → Value
  | .output => .text (utf8 "output.bin")
  | .strict | .extended | .labels | .verbose => .switch false

namespace Assignment

def key : Assignment → Key
  | .output _ => .output
  | .strict _ => .strict
  | .extended _ => .extended
  | .labels _ => .labels
  | .verbose _ => .verbose

def value : Assignment → Value
  | .output name => .text name
  | .strict on | .extended on | .labels on | .verbose on => .switch on

end Assignment

def value (s : Settings) : Key → Value
  | .output => .text s.output
  | .strict => .switch s.strict
  | .extended => .switch s.extended
  | .labels => .switch s.labels
  | .verbose => .switch s.verbose

def lastAssigned? (k : Key) (as : List Assignment) : Option Value :=
  last? Assignment.key Assignment.value k as

theorem lastAssigned?_concat (k : Key) (as : List Assignment) (a : Assignment) :
    lastAssigned? k (as ++ [a]) = if a.key = k then some a.value else lastAssigned? k as :=
  last?_concat Assignment.key Assignment.value k as a

theorem value_assign (s : Settings) (a : Assignment) (k : Key) :
    (s.assign a).value k = if a.key = k then a.value else s.value k := by
  cases a <;> cases k <;> rfl

theorem value_assignAll (s : Settings) (as : List Assignment) (k : Key) :
    (s.assignAll as).value k = (lastAssigned? k as).getD (s.value k) := by
  have last := view_foldl Assignment.key Assignment.value k assign (fun s => s.value k) id
    (fun s a => value_assign s a k) s as
  rwa [Option.map_id_fun, id] at last

section Entries

open Yaml

variable {d : Document}

def Outcome.value? {α : Type} : Outcome α → Option α
  | .value a => some a
  | _ => none

theorem assignments_effect {α : Type} (assignment : α → Assignment) (o : Outcome α) :
    (o.effect assignment).assignments = (o.value?.map assignment).toList := by
  cases o <;> rfl

def Key.read? (d : Document) (n : Node) (k : Key) : Option Value :=
  if k = .output then (readText d n).value?.map .text else (readSwitch d n).value?.map .switch

def Sets (d : Document) (e : Node × Node) (k : Key) (v : Value) : Prop :=
  (readText d e.1).value? = some k.name ∧ k.read? d e.2 = some v

theorem exists_key_of_switch? {name : Bytes} {assignment : Bool → Assignment}
    (found : switch? name = some assignment) : ∃ k : Key, name = k.name ∧ k ≠ .output ∧
      ∀ on, (assignment on).key = k ∧ (assignment on).value = .switch on := by
  rw [switch?] at found
  split_ifs at found with named named named named <;> cases found
  · exact ⟨.strict, named, nofun, fun _ => ⟨rfl, rfl⟩⟩
  · exact ⟨.extended, named, nofun, fun _ => ⟨rfl, rfl⟩⟩
  · exact ⟨.labels, named, nofun, fun _ => ⟨rfl, rfl⟩⟩
  · exact ⟨.verbose, named, nofun, fun _ => ⟨rfl, rfl⟩⟩

theorem exists_key_of_settingEffect? {name : Bytes} {n : Node} {effect : Effect}
    (found : settingEffect? d name n = some effect) :
    ∃ (k : Key) (given : Option Assignment), name = k.name ∧ effect.assignments = given.toList ∧
      k.read? d n = given.map Assignment.value ∧ ∀ a ∈ given, a.key = k := by
  rw [settingEffect?] at found
  split at found
  next output =>
    cases found
    refine ⟨.output, (readText d n).value?.map .output, output, assignments_effect _ _, ?_, ?_⟩
    · rw [Key.read?, if_pos rfl, Option.map_map]
      rfl
    · intro a member
      obtain ⟨text, -, rfl⟩ := Option.map_eq_some_iff.1 member
      rfl
  next =>
    obtain ⟨assignment, switch, rfl⟩ := Option.map_eq_some_iff.1 found
    obtain ⟨k, named, other, makes⟩ := exists_key_of_switch? switch
    refine ⟨k, (readSwitch d n).value?.map assignment, named, assignments_effect _ _, ?_, ?_⟩
    · rw [Key.read?, if_neg other, Option.map_map]
      exact congrArg (Option.map · _) (funext fun on => (makes on).2.symm)
    · intro a member
      obtain ⟨on, -, rfl⟩ := Option.map_eq_some_iff.1 member
      exact (makes on).1

theorem Key.name_inj {j k : Key} : j.name = k.name ↔ j = k := by
  constructor
  · intro same
    cases j <;> cases k <;> revert same <;> decide
  · exact congrArg Key.name

def Effect.Clean (e : Effect) : Prop :=
  e.problems = [] ∧ e.fault = none

theorem Effect.clean_of_append {e f : Effect} (clean : (e.append f).Clean) :
    e.Clean ∧ f.Clean ∧ (e.append f).assignments = e.assignments ++ f.assignments := by
  cases halted : e.fault with
  | some fault =>
    rw [append, if_pos (by rw [halted]; rfl)] at clean
    cases halted.symm.trans clean.2
  | none =>
    rw [append, if_neg (by rw [halted]; exact Bool.false_ne_true)] at clean ⊢
    obtain ⟨fine, sound⟩ := List.append_eq_nil_iff.1 clean.1
    exact ⟨⟨fine, halted⟩, ⟨sound, clean.2⟩, rfl⟩

namespace Progress

-- What an entry can do to a mapping into which no other is merged.
inductive Entered (d : Document) (p : Progress) (e : Node × Node) : Progress → Prop where
  | halted (fault : p.effect.fault.isSome) : Entered d p e p
  | skipped (unread : (readText d e.1).value? = none) : Entered d p e p
  | noted {f : Effect} (unread : (readText d e.1).value? = none) (idle : f.assignments = []) :
    Entered d p e (p.add f)
  | refused {f : Effect} (unclean : ¬ f.Clean) : Entered d p e (p.add f)
  | taken {k : Key} {f : Effect} {assigned : Option Assignment}
    (named : (readText d e.1).value? = some k.name) (fresh : k.name ∉ p.given)
    (read : k.read? d e.2 = assigned.map Assignment.value) (keyed : ∀ a ∈ assigned, a.key = k)
    (assigns : f.assignments = assigned.toList) :
    Entered d p e { p.add f with given := k.name :: p.given }

theorem entered_entry {p : Progress} {e : Node × Node} (unclaimed : p.claimed = none)
    (single : e.1.isMerge = false) : Entered d p e (p.entry d e) := by
  obtain ⟨effect, given, claimed⟩ := p
  cases unclaimed
  rw [entry, single, Bool.or_false]
  split
  next fault => exact .halted fault
  next =>
    cases key : readText d e.1 with
    | nothing => exact .skipped (by rw [key]; rfl)
    | unfit problems => exact .noted (by rw [key]; rfl) rfl
    | halted fault => exact .refused nofun
    | value name =>
      simp only [named, isClaimed, Option.map_none, Option.getD_none, Bool.false_eq_true,
        ↓reduceIte]
      cases found : settingEffect? d name e.2 with
      | none => exact .refused nofun
      | some effect =>
        obtain ⟨k, assigned, rfl, assigns, read, keyed⟩ := exists_key_of_settingEffect? found
        dsimp only
        split
        next => exact .refused nofun
        next fresh => exact .taken (by rw [key]; rfl) (by simpa using fresh) read keyed assigns

def Tracked (p : Progress) : Prop :=
  ∀ a ∈ p.effect.assignments, a.key.name ∈ p.given

section Entered

variable {p q : Progress} {e : Node × Node}

theorem Entered.claimed_eq (entered : Entered d p e q) : q.claimed = p.claimed := by
  cases entered <;> rfl

theorem Entered.clean (entered : Entered d p e q) (clean : q.effect.Clean) : p.effect.Clean := by
  cases entered with
  | halted | skipped => exact clean
  | noted | refused | taken => exact (Effect.clean_of_append clean).1

theorem Entered.tracked (entered : Entered d p e q) (clean : q.effect.Clean)
    (tracked : p.Tracked) : q.Tracked := by
  cases entered with
  | halted | skipped => exact tracked
  | refused unclean => exact absurd (Effect.clean_of_append clean).2.1 unclean
  | noted unread idle =>
    intro a member
    rw [add, (Effect.clean_of_append clean).2.2, idle, List.append_nil] at member
    exact tracked a member
  | taken named fresh read keyed assigns =>
    intro a member
    rw [add, (Effect.clean_of_append clean).2.2, assigns, List.mem_append,
      Option.mem_toList] at member
    rcases member with before | now
    · exact List.mem_cons_of_mem _ (tracked a before)
    · rw [keyed a now]
      exact List.mem_cons_self

theorem Entered.lastAssigned?_iff (entered : Entered d p e q) (clean : q.effect.Clean)
    (tracked : p.Tracked) (k : Key) (v : Value) :
    lastAssigned? k q.effect.assignments = some v ↔
      Sets d e k v ∨ lastAssigned? k p.effect.assignments = some v := by
  cases entered with
  | halted fault =>
    rw [clean.2] at fault
    cases fault
  | skipped unread => simp [Sets, unread]
  | noted unread idle => simp [Sets, unread, add, (Effect.clean_of_append clean).2.2, idle]
  | refused unclean => exact absurd (Effect.clean_of_append clean).2.1 unclean
  | @taken j f assigned named fresh read keyed assigns =>
    rw [add, (Effect.clean_of_append clean).2.2, assigns, Sets, named, Option.some.injEq,
      Key.name_inj]
    by_cases same : j = k
    next =>
      subst same
      -- The key is new, so that nothing was assigned to it before.
      have absent : lastAssigned? j p.effect.assignments = none :=
        last?_eq_none _ _ _ fun a member found => fresh (found ▸ tracked a member)
      cases assigned with
      | none => simp [absent, read]
      | some a => simp [lastAssigned?_concat, read, keyed a rfl, absent]
    next =>
      cases assigned with
      | none => simp [same]
      | some a => simp [lastAssigned?_concat, keyed a rfl, same]

end Entered

section Run

variable {p : Progress} {es : List (Node × Node)}

theorem clean_of_foldl (unclaimed : p.claimed = none) (single : ∀ e ∈ es, e.1.isMerge = false)
    (clean : (es.foldl (entry d) p).effect.Clean) : p.effect.Clean := by
  induction es generalizing p with
  | nil => exact clean
  | cons e es ih =>
    rw [List.forall_mem_cons] at single
    have entered := entered_entry (d := d) unclaimed single.1
    exact entered.clean (ih (entered.claimed_eq.trans unclaimed) single.2 clean)

theorem lastAssigned?_foldl_iff (unclaimed : p.claimed = none) (tracked : p.Tracked)
    (single : ∀ e ∈ es, e.1.isMerge = false)
    (clean : (es.foldl (entry d) p).effect.Clean) (k : Key) (v : Value) :
    lastAssigned? k (es.foldl (entry d) p).effect.assignments = some v ↔
      (∃ e ∈ es, Sets d e k v) ∨ lastAssigned? k p.effect.assignments = some v := by
  induction es generalizing p with
  | nil => simp
  | cons e es ih =>
    rw [List.forall_mem_cons] at single
    have entered := entered_entry (d := d) unclaimed single.1
    have still := entered.claimed_eq.trans unclaimed
    have fine := clean_of_foldl still single.2 clean
    have below := ih still (entered.tracked fine tracked) single.2 clean
    rw [List.foldl_cons, below, entered.lastAssigned?_iff fine tracked]
    simp only [List.mem_cons, exists_eq_or_imp, or_assoc, or_left_comm]

end Run

end Progress

-- A mapping without merges sets the keys that it has entries for, to what these give.
theorem lastAssigned?_documentEffect_iff {line : Nat} {tag : Tag} {es : List (Node × Node)}
    (root : d.root = .mapping line tag es) (single : ∀ e ∈ es, e.1.isMerge = false)
    (clean : (documentEffect d).Clean) (k : Key) (v : Value) :
    lastAssigned? k (documentEffect d).assignments = some v ↔ ∃ e ∈ es, Sets d e k v := by
  obtain ⟨fuel, enough⟩ : ∃ fuel, (d.size + 1) * (d.size + 1) = fuel + 1 :=
    Nat.exists_eq_succ_of_ne_zero (Nat.mul_ne_zero (Nat.succ_ne_zero _) (Nat.succ_ne_zero _))
  have unmerged : (es.filter fun e => e.1.isMerge) = [] := by
    rw [List.filter_eq_nil_iff]
    intro e member
    simp [single e member]
  simp only [documentEffect, root, enough, readMapping] at clean ⊢
  split at clean
  next repeated => cases repeated (List.append_eq_nil_iff.1 clean.1).2
  next distinct =>
    simp only [unmerged, List.getLast?_nil] at clean
    simp only [distinct, ↓reduceIte, unmerged, List.getLast?_nil]
    have fresh : Progress.Tracked {} := fun _ member => absurd member List.not_mem_nil
    rw [Progress.lastAssigned?_foldl_iff rfl fresh single clean]
    exact or_iff_left nofun

end Entries

end Settings

end StackAsm
