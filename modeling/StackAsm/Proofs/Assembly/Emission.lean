import StackAsm.Proofs.Assembly.Spelling

set_option autoImplicit false

namespace StackAsm

theorem eq_ok_of_bind {ε α β : Type} {first : Except ε α} {next : α → Except ε β} {result : β}
    (run : first >>= next = .ok result) : ∃ value, first = .ok value ∧ next value = .ok result := by
  cases first with
  | error e => cases run
  | ok value => exact ⟨value, rfl, run⟩

theorem bind_eq_ok_iff {ε α β : Type} {first : Except ε α} {next : α → Except ε β} {result : β} :
    first >>= next = .ok result ↔ ∃ value, first = .ok value ∧ next value = .ok result := by
  refine ⟨eq_ok_of_bind, ?_⟩
  rintro ⟨value, rfl, run⟩
  exact run

theorem NameTable.find?_eq_some (t : NameTable) (small : t.first + t.names.length ≤ 0x100)
    {name : Bytes} {n : UInt8} (found : t.find? name = some n) :
    t.name n = name ∧ t.first ≤ n.toNat ∧ n.toNat < t.first + t.names.length := by
  rw [find?, Option.map_eq_some_iff] at found
  obtain ⟨i, index, rfl⟩ := found
  obtain ⟨inside, here, -⟩ := List.idxOf?_eq_some_iff.1 index
  have value : (UInt8.ofNat (t.first + i)).toNat = t.first + i := by
    rw [UInt8.toNat_ofNat', Nat.mod_eq_of_lt (by omega)]
  refine ⟨?_, by omega, by omega⟩
  rw [NameTable.name, value, if_neg (by omega), Nat.add_sub_cancel_left]
  simp [inside, here]

theorem exists_map_eq_map_ok_iff {ε α β : Type} (f : α → Except ε β) (xs : List α) :
    (∃ ys : List β, xs.map f = ys.map .ok) ↔ ∀ x ∈ xs, ∃ y, f x = .ok y := by
  constructor
  · rintro ⟨ys, same⟩ x member
    have listed : f x ∈ ys.map Except.ok := same ▸ List.mem_map_of_mem member
    obtain ⟨y, -, here⟩ := List.mem_map.1 listed
    exact ⟨y, here.symm⟩
  · intro each
    induction xs with
    | nil => exact ⟨[], rfl⟩
    | cons x xs ih =>
      obtain ⟨⟨y, here⟩, later⟩ := List.forall_mem_cons.1 each
      obtain ⟨ys, same⟩ := ih later
      exact ⟨y :: ys, by rw [List.map_cons, List.map_cons, here, same]⟩

namespace Mnemonic

inductive Builds : Mnemonic → Instruction → Prop where
  | exit (code : UInt32) : Builds .exit (.exit code)
  | swap (source target : Int32) : Builds .swap (.swap source target)
  | nop : Builds .nop .nop
  | input : Builds .input .input
  | stinput (limit : UInt32) : Builds .stinput (.stinput limit)
  | debug (value : UInt32) : Builds .debug (.debug value)
  | pop (offset : UInt32) : Builds .pop (.pop offset)
  | ret (offset : UInt32) : Builds .ret (.ret offset)
  | dup (offset : Int32) : Builds .dup (.dup offset)
  | push (value : UInt32) : Builds .push (.push value)
  | dump : Builds .dump .dump
  | print (offset : Int32) {format : UInt8} (small : format < 4) :
    Builds .print (.print offset format)
  | stprint (offset : Int32) {format : UInt8} (small : format < 4) :
    Builds .stprint (.stprint offset format)
  | arithmetic (operator : UInt8) : Builds (.arithmetic operator) (.binary operator)
  | unary (operator : UInt8) : Builds (.unary operator) (.unary operator)

def Valid : Mnemonic → Prop
  | .arithmetic operator => 1 ≤ operator ∧ operator ≤ 11
  | .unary operator => operator ≤ 1
  | _ => True

theorem Builds.spellable {m : Mnemonic} {i : Instruction} (builds : m.Builds i)
    (valid : m.Valid) : i.Spellable := by
  cases builds with
  | print offset small | stprint offset small => exact small
  | arithmetic operator | unary operator => exact valid
  | _ => trivial

theorem findIn_eq_some {ms : List Mnemonic} {name : Bytes} {m : Mnemonic}
    (found : findIn ms name = some m) : m ∈ ms ∧ m.name = name := by
  rw [findIn] at found
  exact ⟨List.mem_of_find?_eq_some found, by simpa using List.find?_some found⟩

theorem valid_of_mem : ∀ m ∈ base ++ extendedOnly, m.Valid := by
  simp [base, extendedOnly, Valid]

theorem find?_eq_some {extended : Bool} {name : Bytes} {m : Mnemonic}
    (found : find? extended name = some m) : m.name = name ∧ m.Valid := by
  have listed {ms : List Mnemonic} (among : ∀ m ∈ ms, m ∈ base ++ extendedOnly)
      (here : findIn ms name = some m) : m.name = name ∧ m.Valid := by
    obtain ⟨member, named⟩ := findIn_eq_some here
    exact ⟨named, valid_of_mem m (among m member)⟩
  rw [find?] at found
  split at found
  next here =>
    cases found
    exact listed (fun m member => List.mem_append_left _ member) here
  next =>
    split at found
    next =>
      -- The lists of names are searched first, then the two tables of operators.
      simp only [Option.or_eq_some_iff, Option.map_eq_some_iff] at found
      rcases found with here | ⟨-, ⟨n, index, rfl⟩ | ⟨-, n, index, rfl⟩⟩
      · exact listed (fun m member => List.mem_append_right _ member) here
      · obtain ⟨named, lower, upper⟩ := NameTable.arithmetic.find?_eq_some (by decide) index
        exact ⟨named, UInt8.le_iff_toNat_le.2 lower,
          UInt8.le_iff_toNat_le.2 (Nat.le_of_lt_succ upper)⟩
      · obtain ⟨named, -, upper⟩ := NameTable.unary.find?_eq_some (by decide) index
        exact ⟨named, UInt8.le_iff_toNat_le.2 (Nat.le_of_lt_succ upper)⟩
    next => cases found

theorem find?_stpush_iff (extended : Bool) (name : Bytes) :
    find? extended name = some .stpush ↔ name = utf8 "stpush" := by
  constructor
  · intro found
    exact (find?_eq_some found).1.symm
  · rintro rfl
    cases extended <;> decide +kernel

end Mnemonic

namespace Operand

theorem format?_lt {token : Bytes} {f : UInt8} (read : format? token = some f) : f < 4 := by
  rw [format?, Option.or_eq_some_iff, Option.map_eq_some_iff] at read
  rcases read with named | ⟨-, n, value, rfl⟩
  · have bound := (NameTable.format.find?_eq_some (by decide) named).2.2
    exact UInt8.lt_iff_toNat_lt.2 bound
  · rw [Numeral.naturalUpTo?, Option.filter_eq_some_iff] at value
    have bound : n ≤ 3 := by simpa using value.2
    rw [UInt8.lt_iff_toNat_lt, UInt8.toNat_ofNat']
    exact Nat.lt_of_le_of_lt (Nat.mod_le n _) (Nat.lt_succ_of_le bound)

theorem format_lt {m : Mnemonic} {token : Option Bytes} {f : UInt8}
    (read : format m token = .ok f) : f < 4 := by
  cases token with
  | none =>
    cases read
    decide
  | some token =>
    rw [format] at read
    split at read
    next found =>
      cases read
      exact format?_lt found
    next => cases read

end Operand

namespace Statement

open Operand

theorem build_eq_ok {m : Mnemonic} (single : m ≠ .stpush) {rest : Bytes} {os : List Bytes}
    {is : List Instruction} (built : build m rest os = .ok is) : ∃ i, is = [i] ∧ m.Builds i := by
  -- The first bind limits the number of operands, and `debug` does so twice; the others read them.
  cases m with
  | stpush => exact absurd rfl single
  | exit | dup | stinput | pop | ret | push =>
    obtain ⟨_, -, built⟩ := eq_ok_of_bind built
    obtain ⟨value, -, built⟩ := eq_ok_of_bind built
    cases built
    exact ⟨_, rfl, by constructor⟩
  | swap =>
    obtain ⟨_, -, built⟩ := eq_ok_of_bind built
    obtain ⟨source, -, built⟩ := eq_ok_of_bind built
    obtain ⟨target, -, built⟩ := eq_ok_of_bind built
    cases built
    exact ⟨_, rfl, by constructor⟩
  | debug =>
    obtain ⟨_, -, built⟩ := eq_ok_of_bind built
    obtain ⟨_, -, built⟩ := eq_ok_of_bind built
    obtain ⟨value, -, built⟩ := eq_ok_of_bind built
    cases built
    exact ⟨_, rfl, by constructor⟩
  | print | stprint =>
    obtain ⟨_, -, built⟩ := eq_ok_of_bind built
    obtain ⟨offset, -, built⟩ := eq_ok_of_bind built
    obtain ⟨form, read, built⟩ := eq_ok_of_bind built
    cases built
    exact ⟨_, rfl, by constructor; exact format_lt read⟩
  | nop | input | dump | arithmetic operator | unary operator =>
    obtain ⟨_, -, built⟩ := eq_ok_of_bind built
    cases built
    exact ⟨_, rfl, by constructor⟩

theorem emit_recognised (mode : Mode) {text : Bytes} {m : Mnemonic}
    (found : Mnemonic.find? mode.extended (Line.mnemonic text) = some m) :
    emit mode text = build m (Line.rest text) (Line.operands text) := by
  rw [emit, recognised?, found]

theorem emit_unrecognised (mode : Mode) {text : Bytes}
    (missing : Mnemonic.find? mode.extended (Line.mnemonic text) = none) :
    emit mode text = if mode.strict then .error (refusal text) else .ok [.unknown 0] := by
  rw [emit, recognised?, missing]

theorem emit_eq_ok {mode : Mode} {text : Bytes} {is : List Instruction}
    (emitted : emit mode text = .ok is) :
    (Line.mnemonic text = utf8 "stpush" ∧
      ∃ content, Literal.content? (Line.rest text) = some content ∧
        is = StringPush.expand content) ∨
    (Line.mnemonic text ≠ utf8 "stpush" ∧ ∃ i, is = [i] ∧ (i.Spellable ∨ i = .unknown 0)) := by
  by_cases string : Line.mnemonic text = utf8 "stpush"
  · have found : recognised? mode text = some .stpush :=
      (Mnemonic.find?_stpush_iff mode.extended _).2 string
    simp only [emit, found, build] at emitted
    split at emitted
    next content quoted =>
      cases emitted
      exact .inl ⟨string, content, quoted, rfl⟩
    next => cases emitted
  · refine .inr ⟨string, ?_⟩
    rw [emit] at emitted
    split at emitted
    next m found =>
      have single : m ≠ .stpush := by
        rintro rfl
        exact string ((Mnemonic.find?_stpush_iff mode.extended _).1 found)
      obtain ⟨i, rfl, builds⟩ := build_eq_ok single emitted
      exact ⟨i, rfl, .inl (builds.spellable (Mnemonic.find?_eq_some found).2)⟩
    next =>
      split at emitted
      next => cases emitted
      next =>
        cases emitted
        exact ⟨.unknown 0, rfl, .inr rfl⟩

end Statement

theorem StringPush.eq_push_of_mem_expand {content : Bytes} {i : Instruction}
    (member : i ∈ expand content) : ∃ value, i = .push value := by
  rw [expand] at member
  cases chunks : (StringPush.chunks (Literal.unescape content)).reverse with
  | nil => simp [chunks, pushes] at member
  | cons last before =>
    rw [chunks, pushes, List.mem_cons, List.mem_map] at member
    rcases member with rfl | ⟨chunk, -, rfl⟩
    · exact ⟨_, rfl⟩
    · exact ⟨_, rfl⟩

def AllKnown (is : List Instruction) : Prop :=
  ∀ i ∈ is, ∀ word, i ≠ .unknown word

theorem Statement.allKnown_of_build {m : Mnemonic} {rest : Bytes} {os : List Bytes}
    {is : List Instruction} (built : build m rest os = .ok is) : AllKnown is := by
  intro i member word
  by_cases string : m = .stpush
  next =>
    rw [string, build] at built
    split at built
    next =>
      cases built
      obtain ⟨value, rfl⟩ := StringPush.eq_push_of_mem_expand member
      simp
    next => cases built
  next =>
    obtain ⟨only, rfl, builds⟩ := build_eq_ok string built
    obtain rfl := List.mem_singleton.1 member
    cases builds <;> simp

namespace Assembly

theorem spellable_of_emitLine {mode : Mode} {l : Line} {is : List Instruction}
    (emitted : emitLine mode l = .ok is) : ∀ i ∈ is, i.Spellable ∨ i = .unknown 0 := by
  intro i member
  cases l with
  | blank | label name =>
    cases emitted
    cases member
  | instruction text =>
    rcases Statement.emit_eq_ok emitted with ⟨-, content, -, rfl⟩ | ⟨-, only, rfl, spelled⟩
    · obtain ⟨value, rfl⟩ := StringPush.eq_push_of_mem_expand member
      exact .inl trivial
    · obtain rfl : i = only := by simpa using member
      exact spelled

theorem emitFrom_eq_ok_iff (file : Bytes) (mode : Mode) (above : Nat) (ls : List Line)
    (yields : List (List Instruction)) :
    emitFrom file mode above ls = .ok yields ↔ ls.map (emitLine mode) = yields.map .ok := by
  induction ls generalizing above yields with
  | nil => cases yields <;> simp [emitFrom]
  | cons l ls ih =>
    rw [emitFrom]
    cases here : emitLine mode l with
    | error problem => cases yields <;> simp [here]
    | ok is =>
      cases yields with
      | nil => cases emitFrom file mode (above + 1) ls <;> simp [Except.map]
      | cons first yields =>
        rw [List.map_cons, List.map_cons, here, List.cons.injEq, ← ih (above + 1)]
        cases emitFrom file mode (above + 1) ls <;> simp [Except.map]

inductive Emitted (mode : Mode) : List Line → List (List Instruction) → Prop where
  | nil : Emitted mode [] []
  | cons {l : Line} {is : List Instruction} {ls : List Line} {yields : List (List Instruction)}
    (here : emitLine mode l = .ok is) (below : Emitted mode ls yields) :
    Emitted mode (l :: ls) (is :: yields)

theorem emitted_iff_map_eq {mode : Mode} {ls : List Line} {yields : List (List Instruction)} :
    Emitted mode ls yields ↔ ls.map (emitLine mode) = yields.map .ok := by
  constructor
  · intro emitted
    induction emitted with
    | nil => rfl
    | cons here _ ih => rw [List.map_cons, List.map_cons, here, ih]
  · intro same
    induction ls generalizing yields with
    | nil =>
      cases yields with
      | nil => exact .nil
      | cons is yields => cases same
    | cons l ls ih =>
      cases yields with
      | nil => cases same
      | cons is yields =>
        simp only [List.map_cons, List.cons.injEq] at same
        exact .cons same.1 (ih same.2)

theorem wellLabelled_eq_self_iff (ls : List Line) :
    wellLabelled ls = ls ↔ Line.label [] ∉ ls := by
  induction ls with
  | nil => simp [wellLabelled]
  | cons l ls ih =>
    simp only [wellLabelled, ne_eq, List.mem_cons, not_or] at ih ⊢
    by_cases unnamed : l = .label []
    · simp [unnamed]
    · rw [List.takeWhile_cons_of_pos (by simpa using unnamed), List.cons.injEq, ih]
      simp [Ne.symm unnamed]

theorem length_wellLabelled_lt_iff (ls : List Line) :
    (wellLabelled ls).length < ls.length ↔ Line.label [] ∈ ls := by
  have start : wellLabelled ls <+: ls := List.takeWhile_prefix _
  rw [← Decidable.not_iff_not, ← wellLabelled_eq_self_iff]
  constructor
  · intro long
    exact start.eq_of_length (Nat.le_antisymm start.length_le (Nat.le_of_not_lt long))
  · intro whole
    rw [whole]
    exact Nat.lt_irrefl _

theorem ofLines_of_unnamed (file : Bytes) (mode : Mode) {ls : List Line}
    (unnamed : Line.label [] ∈ ls) : (ofLines file mode ls).result =
      .error (lineFailure file ((wellLabelled ls).length + 1) .emptyLabelName) := by
  simp only [ofLines, (length_wellLabelled_lt_iff ls).2 unnamed, ↓reduceIte]

theorem ofLines_of_named (file : Bytes) (mode : Mode) {ls : List Line}
    (named : Line.label [] ∉ ls) : (ofLines file mode ls).result =
      (emitFrom file mode 0 ls).map fun yields => ⟨yields.flatten,
        Label.table (Label.declarations ls), Label.warnings file (Label.declarations ls)⟩ := by
  simp only [ofLines, (wellLabelled_eq_self_iff ls).2 named, Nat.lt_irrefl, ↓reduceIte]

theorem ofLines_eq_ok_iff (file : Bytes) (mode : Mode) (ls : List Line) (p : Program) :
    (ofLines file mode ls).result = .ok p ↔
      Line.label [] ∉ ls ∧ ∃ yields : List (List Instruction),
        ls.map (emitLine mode) = yields.map .ok ∧
        p = ⟨yields.flatten, Label.table (Label.declarations ls),
          Label.warnings file (Label.declarations ls)⟩ := by
  by_cases unnamed : Line.label [] ∈ ls
  next => simp [ofLines_of_unnamed file mode unnamed, unnamed]
  next =>
    simp only [ofLines_of_named file mode unnamed, unnamed, not_false_eq_true, true_and,
      ← emitFrom_eq_ok_iff file mode 0]
    cases emitFrom file mode 0 ls <;> simp [Except.map, eq_comm]

theorem exists_ofLines_iff (file : Bytes) (mode : Mode) (ls : List Line) :
    (∃ p, (ofLines file mode ls).result = .ok p) ↔
      ∀ l ∈ ls, l ≠ .label [] ∧ ∃ is, emitLine mode l = .ok is := by
  have named : Line.label [] ∉ ls ↔ ∀ l ∈ ls, l ≠ .label [] := by
    constructor
    · rintro absent l member rfl
      exact absent member
    · intro each member
      exact each _ member rfl
  simp only [ofLines_eq_ok_iff, named, forall_and, ← exists_map_eq_map_ok_iff]
  constructor
  · rintro ⟨p, each, yields, emitted, -⟩
    exact ⟨each, yields, emitted⟩
  · rintro ⟨each, yields, emitted⟩
    exact ⟨_, each, yields, emitted, rfl⟩

end Assembly

def Line.ofSource (data : Bytes) : List Line :=
  (sourceLines data).map classify

theorem assemble_of_failure (file : Bytes) (mode : Mode) (data : Bytes) (cause : Cause) :
    (assemble file mode ⟨data, some cause⟩).result =
      .error ⟨[.lineReadFailed ((sourceLines data).length + 1)], cause⟩ :=
  rfl

theorem assemble_of_whole (file : Bytes) (mode : Mode) (data : Bytes) :
    assemble file mode ⟨data, none⟩ = Assembly.ofLines file mode (Line.ofSource data) :=
  rfl

theorem assemble_eq_ok_iff (file : Bytes) (mode : Mode) (data : Bytes) (p : Program) :
    (assemble file mode (.ofBytes data)).result = .ok p ↔
      Line.label [] ∉ Line.ofSource data ∧
        ∃ yields : List (List Instruction),
          (Line.ofSource data).map (Assembly.emitLine mode) = yields.map .ok ∧
          p = ⟨yields.flatten, Label.table (Label.declarations (Line.ofSource data)),
            Label.warnings file (Label.declarations (Line.ofSource data))⟩ :=
  Assembly.ofLines_eq_ok_iff file mode (Line.ofSource data) p

theorem Label.declarationsFrom_instructions (above offset : Nat) (texts : List Bytes) :
    declarationsFrom above offset (texts.map .instruction) = [] := by
  induction texts generalizing above offset with
  | nil => rfl
  | cons text texts ih => exact ih (above + 1) _

theorem assemble_instructions (file : Bytes) {mode : Mode} {data : Bytes} {texts : List Bytes}
    {yields : List (List Instruction)} (lines : Line.ofSource data = texts.map .instruction)
    (emitted : texts.map (Statement.emit mode) = yields.map .ok) :
    (assemble file mode (.ofBytes data)).result = .ok ⟨yields.flatten, [], []⟩ := by
  have undeclared := Label.declarationsFrom_instructions 0 0 texts
  rw [assemble_eq_ok_iff, lines, Label.declarations, undeclared]
  refine ⟨by simp, yields, ?_, rfl⟩
  rw [← emitted, List.map_map]
  rfl

theorem spellable_of_assemble {file : Bytes} {mode : Mode} {data : Bytes} {p : Program}
    (assembled : (assemble file mode (.ofBytes data)).result = .ok p) :
    ∀ i ∈ p.instructions, i.Spellable ∨ i = .unknown 0 := by
  obtain ⟨-, yields, emitted, rfl⟩ := (assemble_eq_ok_iff file mode data p).1 assembled
  intro i member
  obtain ⟨is, yielded, inside⟩ := List.mem_flatten.1 member
  have listed : Except.ok is ∈ (Line.ofSource data).map (Assembly.emitLine mode) := by
    rw [emitted]
    exact List.mem_map_of_mem yielded
  obtain ⟨l, -, line⟩ := List.mem_map.1 listed
  exact Assembly.spellable_of_emitLine line i inside

end StackAsm
