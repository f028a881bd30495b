import Mathlib.Data.List.TakeWhile
import StackAsm.Command.Flags
import StackAsm.Proofs.Settings.Entries

set_option autoImplicit false

namespace StackAsm

open Ascii

namespace Command

def Flag.name : Flag → Bytes
  | .config _ => utf8 "config"
  | .disassemble _ => utf8 "d"
  | .debug _ => utf8 "debug"
  | .setting (.output _) => utf8 "o"
  | .setting (.strict _) => utf8 "strict"
  | .setting (.extended _) => utf8 "extended"
  | .setting (.labels _) => utf8 "labels"
  | .setting (.verbose _) => utf8 "v"

def Flag.value : Flag → Settings.Value
  | .config name => .text name
  | .disassemble on | .debug on => .switch on
  | .setting assignment => assignment.value

def IsMark (dashes : Bytes) : Prop :=
  dashes = [hyphen] ∨ dashes = [hyphen, hyphen]

def valueText : Option Bytes → Bytes
  | none => []
  | some v => equals :: v

/-- How the value of a flag is given, behind an equals sign or by the arguments that follow, and
which arguments are left. A switch is on if nothing is given. -/
inductive Given : Settings.Value → Option Bytes → List Bytes → List Bytes → Prop where
  | on {after : List Bytes} : Given (.switch true) none after after
  | switched {v : Bytes} {on : Bool} {after : List Bytes} (spelled : switchValue? v = some on) :
    Given (.switch on) (some v) after after
  | joined {v : Bytes} {after : List Bytes} : Given (.text v) (some v) after after
  | apart {v : Bytes} {after : List Bytes} : Given (.text v) none (v :: after) after

/-- The flags at the start of an argument list, up to the first argument that is none or behind the
mark that ends them, and the arguments left. -/
inductive Reads : List Bytes → List Flag → List Bytes → Prop where
  | done : Reads [] [] []
  | plain {argument : Bytes} {after : List Bytes}
    (unmarked : argument.head? ≠ some hyphen ∨ argument = [hyphen]) :
    Reads (argument :: after) [] (argument :: after)
  | ended {after : List Bytes} : Reads ([hyphen, hyphen] :: after) [] after
  | flag {f : Flag} {dashes : Bytes} {value : Option Bytes} {after left : List Bytes}
    {flags : List Flag} {names : List Bytes} (mark : IsMark dashes)
    (given : Given f.value value after left) (below : Reads left flags names) :
    Reads ((dashes ++ (f.name ++ valueText value)) :: after) (f :: flags) names

def IsName (name : Bytes) : Prop :=
  name ≠ [] ∧ name.head? ≠ some hyphen ∧ equals ∉ name

theorem Flag.isName_name (f : Flag) : IsName f.name := by
  have each : ∀ name ∈ ["config", "d", "debug", "o", "strict", "extended", "labels", "v"].map utf8,
      IsName name := by
    unfold IsName
    decide
  apply each
  rcases f with _ | _ | _ | (_ | _ | _ | _ | _) <;>
    exact List.mem_map_of_mem (f := utf8) (by decide)

theorem Given.length_le {value : Settings.Value} {written : Option Bytes}
    {after left : List Bytes} (given : Given value written after left) :
    left.length ≤ after.length := by
  cases given <;> simp

inductive Argument.Spelled : Bytes → Argument → Prop where
  | plain {bs : Bytes} (unmarked : bs.head? ≠ some hyphen ∨ bs = [hyphen]) : Spelled bs .plain
  | endOfFlags : Spelled [hyphen, hyphen] .endOfFlags
  | flag {dashes name : Bytes} (mark : IsMark dashes) (named : IsName name)
    (value : Option Bytes) : Spelled (dashes ++ (name ++ valueText value)) (.flag name value)
  | malformed (bs : Bytes) : Spelled bs .malformed

section Argument

theorem nameAndValue_append {name : Bytes} (named : IsName name) (value : Option Bytes) :
    nameAndValue (name ++ valueText value) = .flag name value := by
  obtain ⟨nonempty, dash, unequal⟩ := named
  cases name with
  | nil => exact absurd rfl nonempty
  | cons b rest =>
    rw [List.mem_cons, not_or] at unequal
    have other : ¬ (b = hyphen ∨ b = equals) := by
      rintro (rfl | rfl)
      · exact dash rfl
      · exact unequal.1 rfl
    have before : ∀ x ∈ rest, decide (x ≠ equals) = true :=
      fun x member => decide_eq_true fun same : x = equals => unequal.2 (same ▸ member)
    simp only [List.cons_append, nameAndValue, if_neg other,
      List.takeWhile_append_of_pos before, List.dropWhile_append_of_pos before]
    cases value with
    | none => simp [valueText]
    | some v => simp [valueText]

theorem spelled_nameAndValue {dashes : Bytes} (mark : IsMark dashes) (bs : Bytes) :
    Argument.Spelled (dashes ++ bs) (nameAndValue bs) := by
  cases bs with
  | nil => exact .malformed _
  | cons b rest =>
    rw [nameAndValue]
    split
    next => exact .malformed _
    next other =>
      obtain ⟨dash, equal⟩ := not_or.1 other
      have named : IsName (b :: rest.takeWhile (· ≠ equals)) := by
        refine ⟨List.cons_ne_nil _ _, by simpa using dash, ?_⟩
        rw [List.mem_cons, not_or]
        refine ⟨Ne.symm equal, fun member => ?_⟩
        simpa using List.mem_takeWhile_imp member
      have whole := List.takeWhile_append_dropWhile (p := (· ≠ equals)) (l := rest)
      split
      next ends =>
        rw [ends] at whole
        have all : b :: rest.takeWhile (· ≠ equals) ++ valueText none = b :: rest :=
          congrArg (b :: ·) whole
        rw [← all]
        exact .flag mark named none
      next sign v ends =>
        have first := List.head?_dropWhile_not (· ≠ equals) rest
        rw [ends] at first whole
        obtain rfl : sign = equals := by simpa using first
        have all : b :: rest.takeWhile (· ≠ equals) ++ valueText (some v) = b :: rest :=
          congrArg (b :: ·) whole
        rw [← all]
        exact .flag mark named (some v)

theorem spelled_ofBytes (bs : Bytes) : Argument.Spelled bs (Argument.ofBytes bs) := by
  match bs with
  | [] => exact .plain (.inl nofun)
  | [b] =>
    refine .plain ?_
    by_cases dash : b = hyphen
    next => exact .inr (by rw [dash])
    next => exact .inl (by simpa using dash)
  | b :: c :: rest =>
    rw [Argument.ofBytes]
    split
    next other => exact .plain (.inl (by simpa using other))
    next first =>
      obtain rfl := not_ne_iff.1 first
      split
      next => exact spelled_nameAndValue (.inl rfl) (c :: rest)
      next second =>
        obtain rfl := not_ne_iff.1 second
        split
        next last =>
          rw [last]
          exact .endOfFlags
        next => exact spelled_nameAndValue (.inr rfl) rest

theorem ofBytes_of_flag {dashes name : Bytes} (mark : IsMark dashes) (named : IsName name)
    (value : Option Bytes) :
    Argument.ofBytes (dashes ++ (name ++ valueText value)) = .flag name value := by
  have read := nameAndValue_append named value
  obtain ⟨nonempty, dash, -⟩ := named
  cases name with
  | nil => exact absurd rfl nonempty
  | cons b rest =>
    have other : b ≠ hyphen := fun same => dash (congrArg some same)
    rcases mark with rfl | rfl
    · simp only [List.cons_append, List.nil_append, Argument.ofBytes, ne_eq, not_true_eq_false,
        ↓reduceIte, other, not_false_eq_true]
      exact read
    · simp only [List.cons_append, List.nil_append, Argument.ofBytes, ne_eq, not_true_eq_false,
        ↓reduceIte, reduceCtorEq]
      exact read

theorem ofBytes_of_plain {bs : Bytes} (unmarked : bs.head? ≠ some hyphen ∨ bs = [hyphen]) :
    Argument.ofBytes bs = .plain := by
  match bs with
  | [] | [_] => rfl
  | b :: c :: rest =>
    rcases unmarked with other | single
    · rw [Argument.ofBytes, if_pos fun same => other (congrArg some same)]
    · cases single

end Argument

def FlagKind.Makes (name : Bytes) : FlagKind → Prop
  | .name flag => ∀ v, (flag v).name = name ∧ (flag v).value = .text v
  | .switch flag => ∀ on, (flag on).name = name ∧ (flag on).value = .switch on

theorem makes_of_flagKind? {name : Bytes} {kind : FlagKind} (found : flagKind? name = some kind) :
    kind.Makes name := by
  rw [flagKind?] at found
  -- One round for each name in the table.
  iterate 8
    rw [ite_eq_iff] at found
    rcases found with ⟨named, made⟩ | ⟨-, found⟩
    · cases made
      exact fun _ => ⟨named.symm, rfl⟩
  cases found

theorem flagKind?_of_text {f : Flag} {v : Bytes} (text : f.value = .text v) :
    ∃ flag, flagKind? f.name = some (.name flag) ∧ flag v = f := by
  rcases f with _ | _ | _ | (_ | _ | _ | _ | _) <;> cases text <;> exact ⟨_, rfl, rfl⟩

theorem flagKind?_of_switch {f : Flag} {on : Bool} (switch : f.value = .switch on) :
    ∃ flag, flagKind? f.name = some (.switch flag) ∧ flag on = f := by
  rcases f with _ | _ | _ | (_ | _ | _ | _ | _) <;> cases switch <;> exact ⟨_, rfl, rfl⟩

theorem readFlag_eq_ok_iff {name : Bytes} {value : Option Bytes} {after left : List Bytes}
    {f : Flag} :
    readFlag name value after = .ok (f, left) ↔ f.name = name ∧ Given f.value value after left := by
  constructor
  · intro read
    rw [readFlag] at read
    cases found : flagKind? name with
    | none =>
      simp only [found] at read
      split at read <;> cases read
    | some kind =>
      have makes := makes_of_flagKind? found
      cases kind with
      | switch flag =>
        simp only [found] at read
        split at read
        next =>
          cases read
          rw [(makes true).2]
          exact ⟨(makes true).1, .on⟩
        next v =>
          split at read
          next on spelled =>
            cases read
            rw [(makes on).2]
            exact ⟨(makes on).1, .switched spelled⟩
          next => cases read
      | name flag =>
        simp only [found] at read
        split at read
        next v =>
          cases read
          rw [(makes v).2]
          exact ⟨(makes v).1, .joined⟩
        next v rest =>
          cases read
          rw [(makes v).2]
          exact ⟨(makes v).1, .apart⟩
        next => cases read
  · rintro ⟨rfl, given⟩
    generalize held : f.value = shown at given
    cases given with
    | on =>
      obtain ⟨flag, found, rfl⟩ := flagKind?_of_switch held
      simp only [readFlag, found]
    | switched spelled =>
      obtain ⟨flag, found, rfl⟩ := flagKind?_of_switch held
      simp only [readFlag, found, spelled]
    | joined | apart =>
      obtain ⟨flag, found, rfl⟩ := flagKind?_of_text held
      simp only [readFlag, found]

theorem reads_of_parseWithin {fuel : Nat} {arguments names : List Bytes} {flags : List Flag}
    (enough : arguments.length ≤ fuel)
    (parsed : parseWithin fuel arguments = .ok (flags, names)) : Reads arguments flags names := by
  -- On the fuel, which bounds the arguments left: a flag takes one of them at least.
  induction fuel generalizing arguments flags with
  | zero =>
    cases arguments with
    | nil =>
      cases parsed
      exact .done
    | cons argument after => cases enough
  | succ fuel ih =>
    cases arguments with
    | nil =>
      cases parsed
      exact .done
    | cons argument after =>
      have spelled := spelled_ofBytes argument
      rw [parseWithin] at parsed
      generalize Argument.ofBytes argument = kind at spelled parsed
      cases spelled with
      | plain unmarked =>
        cases parsed
        exact .plain unmarked
      | endOfFlags =>
        cases parsed
        exact .ended
      | malformed => cases parsed
      | @flag dashes name mark named value =>
        dsimp only at parsed
        split at parsed
        next => cases parsed
        next f left read =>
          obtain ⟨rfl, given⟩ := readFlag_eq_ok_iff.1 read
          cases rest : parseWithin fuel left with
          | error problem =>
            rw [rest] at parsed
            cases parsed
          | ok result =>
            rw [rest] at parsed
            cases parsed
            have fewer := given.length_le
            simp only [List.length_cons] at enough
            exact .flag mark given (ih (by omega) rest)

theorem parseWithin_of_reads {arguments names : List Bytes} {flags : List Flag}
    (reads : Reads arguments flags names) {fuel : Nat} (enough : arguments.length ≤ fuel) :
    parseWithin fuel arguments = .ok (flags, names) := by
  induction reads generalizing fuel with
  | done => cases fuel <;> rfl
  | plain unmarked =>
    cases fuel with
    | zero => cases enough
    | succ fuel => simp only [parseWithin, ofBytes_of_plain unmarked]
  | ended =>
    cases fuel with
    | zero => cases enough
    | succ fuel => rfl
  | @flag f dashes value after left flags names mark given below ih =>
    cases fuel with
    | zero => cases enough
    | succ fuel =>
      have fewer := given.length_le
      simp only [List.length_cons] at enough
      have rest : parseWithin fuel left = .ok (flags, names) := ih (by omega)
      simp only [parseWithin, ofBytes_of_flag mark f.isName_name value,
        readFlag_eq_ok_iff.2 ⟨rfl, given⟩, rest]
      rfl

theorem parse_eq_ok_iff {arguments names : List Bytes} {flags : List Flag} :
    parse arguments = .ok (flags, names) ↔ Reads arguments flags names :=
  ⟨reads_of_parseWithin (Nat.le_refl _), fun reads => parseWithin_of_reads reads (Nat.le_refl _)⟩

end Command

end StackAsm
