import StackAsm.Proofs.Assembly.Emission

set_option autoImplicit false

namespace StackAsm

theorem NameTable.isSome_find? (t : NameTable) (name : Bytes) :
    (t.find? name).isSome ↔ name ∈ t.names := by
  rw [find?, Option.isSome_map, List.isSome_idxOf?]

namespace Mnemonic

def extendedNames : List Bytes :=
  ["pop", "push", "print", "stprint", "dump", "return"].map utf8 ++
    (NameTable.arithmetic.names ++ NameTable.unary.names)

theorem isSome_findIn (ms : List Mnemonic) (name : Bytes) :
    (findIn ms name).isSome ↔ name ∈ ms.map Mnemonic.name := by
  simp [findIn]

theorem not_mem_extendedNames_of_base : ∀ m ∈ base, m.name ∉ extendedNames := by
  decide

inductive Recognition (name : Bytes) : Option Mnemonic → Option Mnemonic → Prop where
  | always (m : Mnemonic) (old : name ∉ extendedNames) : Recognition name (some m) (some m)
  | extended (m : Mnemonic) (new : name ∈ extendedNames) : Recognition name none (some m)
  | never (old : name ∉ extendedNames) : Recognition name none none

theorem recognition_find? (name : Bytes) :
    Recognition name (find? false name) (find? true name) := by
  rw [find?, find?]
  cases found : findIn base name with
  | some m =>
    obtain ⟨member, rfl⟩ := findIn_eq_some found
    exact .always m (not_mem_extendedNames_of_base m member)
  | none =>
    -- No table hides another: what is not in the base is found just when it is listed.
    have listed : ((findIn extendedOnly name).or (((NameTable.arithmetic.find? name).map
        Mnemonic.arithmetic).or ((NameTable.unary.find? name).map Mnemonic.unary))).isSome ↔
        name ∈ extendedNames := by
      simp only [Option.isSome_or, Option.isSome_map, Bool.or_eq_true, isSome_findIn,
        NameTable.isSome_find?, extendedNames, List.mem_append]
      rfl
    generalize (findIn extendedOnly name).or _ = wide at listed
    cases wide with
    | some m => exact .extended m (listed.1 rfl)
    | none => exact .never fun new => by simpa using listed.2 new

theorem find?_extended_of_base {name : Bytes} {m : Mnemonic} (found : find? false name = some m) :
    find? true name = some m := by
  have names := recognition_find? name
  rw [found] at names
  generalize find? true name = within at names ⊢
  cases names
  rfl

end Mnemonic

open Mnemonic

namespace Assembly

inductive Widened : Line → List Instruction → List Instruction → Prop where
  | empty (l : Line) : Widened l [] []
  | same {text : Bytes} (old : Line.mnemonic text ∉ extendedNames) (is : List Instruction) :
    Widened (.instruction text) is is
  | replaced {text : Bytes} (new : Line.mnemonic text ∈ extendedNames) {i : Instruction}
    (known : i ≠ .unknown 0) : Widened (.instruction text) [.unknown 0] [i]

theorem exists_widened {l : Line} {wide : List Instruction}
    (emitted : emitLine { extended := true } l = .ok wide) :
    ∃ narrow, emitLine {} l = .ok narrow ∧ Widened l narrow wide := by
  cases l with
  | blank | label name =>
    cases emitted
    exact ⟨[], rfl, .empty _⟩
  | instruction text =>
    have names := recognition_find? (Line.mnemonic text)
    simp only [emitLine] at emitted ⊢
    generalize narrowly : Mnemonic.find? false (Line.mnemonic text) = without at names
    generalize widely : Mnemonic.find? true (Line.mnemonic text) = within at names
    cases names with
    | always m old =>
      -- The same mnemonic builds the same instructions, so even a string is of one length.
      rw [Statement.emit_recognised { extended := true } widely] at emitted
      exact ⟨wide, by rw [Statement.emit_recognised {} narrowly, emitted], .same old wide⟩
    | extended m new =>
      rw [Statement.emit_recognised { extended := true } widely] at emitted
      refine ⟨[.unknown 0], Statement.emit_unrecognised {} narrowly, ?_⟩
      have single : m ≠ .stpush := by
        rintro rfl
        rw [(find?_stpush_iff true _).1 widely] at new
        exact absurd new (by decide)
      obtain ⟨i, rfl, -⟩ := Statement.build_eq_ok single emitted
      exact .replaced new (Statement.allKnown_of_build emitted i List.mem_cons_self 0)
    | never old =>
      rw [Statement.emit_unrecognised { extended := true } widely] at emitted
      cases emitted
      exact ⟨_, Statement.emit_unrecognised {} narrowly, .same old _⟩

theorem emitLine_extended_of_strict {l : Line} {is : List Instruction}
    (emitted : emitLine { strict := true } l = .ok is) :
    emitLine { strict := true, extended := true } l = .ok is := by
  cases l with
  | blank | label name => exact emitted
  | instruction text =>
    simp only [emitLine] at emitted ⊢
    cases found : Mnemonic.find? false (Line.mnemonic text) with
    | some m =>
      rw [Statement.emit_recognised { strict := true } found] at emitted
      rw [Statement.emit_recognised { strict := true, extended := true }
        (find?_extended_of_base found), emitted]
    | none =>
      rw [Statement.emit_unrecognised { strict := true } found] at emitted
      cases emitted

theorem Emitted.extended_of_strict {ls : List Line} {yields : List (List Instruction)}
    (emitted : Emitted { strict := true } ls yields) :
    Emitted { strict := true, extended := true } ls yields := by
  induction emitted with
  | nil => exact .nil
  | cons here _ ih => exact .cons (emitLine_extended_of_strict here) ih

def EmittedBy (yields : List (List Instruction)) (j k : Nat) : Prop :=
  (yields.take j).flatten.length ≤ k ∧ k < (yields.take (j + 1)).flatten.length

theorem EmittedBy.below {yields : List (List Instruction)} {j k : Nat}
    (emittedBy : EmittedBy yields j k) (is : List Instruction) :
    EmittedBy (is :: yields) (j + 1) (is.length + k) := by
  obtain ⟨lower, upper⟩ := emittedBy
  simp only [EmittedBy, List.take_succ_cons, List.flatten_cons, List.length_append]
  omega

structure Replaced (text : Bytes) (wide narrow : Option Instruction) : Prop where
  differ_iff : wide ≠ narrow ↔ Line.mnemonic text ∈ extendedNames
  zero : Line.mnemonic text ∈ extendedNames → narrow = some (.unknown 0)

theorem Widened.length_eq {l : Line} {narrow wide : List Instruction}
    (widened : Widened l narrow wide) : narrow.length = wide.length := by
  cases widened <;> rfl

theorem Widened.replaced_at {l : Line} {narrow wide : List Instruction}
    (widened : Widened l narrow wide) {k : Nat} (inside : k < wide.length) :
    ∃ text, l = .instruction text ∧ Replaced text wide[k]? narrow[k]? := by
  cases widened with
  | empty => cases inside
  | same old => exact ⟨_, rfl, by simpa using old, fun new => absurd new old⟩
  | replaced new known =>
    obtain rfl : k = 0 := by simpa using inside
    exact ⟨_, rfl, by simpa [new] using known, fun _ => rfl⟩

theorem Emitted.exists_narrow {ls : List Line} {wides : List (List Instruction)}
    (emitted : Emitted { extended := true } ls wides) :
    ∃ narrows, Emitted {} ls narrows ∧ narrows.flatten.length = wides.flatten.length ∧
      ∀ k < wides.flatten.length, ∃ j text, ls[j]? = some (.instruction text) ∧
        EmittedBy wides j k ∧ Replaced text wides.flatten[k]? narrows.flatten[k]? := by
  -- Along the lines, with the lengths kept equal: else the positions below would drift apart.
  induction emitted with
  | nil => exact ⟨[], .nil, rfl, fun k inside => by cases inside⟩
  | @cons l wide ls wides here _ ih =>
    obtain ⟨narrow, without, widened⟩ := exists_widened here
    obtain ⟨narrows, withoutBelow, sameBelow, placed⟩ := ih
    have same := widened.length_eq
    refine ⟨narrow :: narrows, .cons without withoutBelow, by simp [same, sameBelow], ?_⟩
    intro k inside
    rw [List.flatten_cons, List.length_append] at inside
    rw [List.flatten_cons, List.flatten_cons]
    by_cases first : k < wide.length
    next =>
      obtain ⟨text, rfl, replaced⟩ := widened.replaced_at first
      rw [List.getElem?_append_left first, List.getElem?_append_left (by omega)]
      exact ⟨0, text, rfl, ⟨by simp, by simpa using first⟩, replaced⟩
    next =>
      obtain ⟨d, rfl⟩ : ∃ d, k = wide.length + d := ⟨k - wide.length, by omega⟩
      obtain ⟨j, text, line, emittedBy, replaced⟩ := placed d (by omega)
      rw [List.getElem?_append_right (by omega), List.getElem?_append_right (by omega), same,
        Nat.add_sub_cancel_left]
      exact ⟨j + 1, text, line, emittedBy.below wide, replaced⟩

end Assembly

open Assembly in
/-- The extended set adds meaning to lines that have none without it, and changes nothing else. -/
theorem extended_is_conservative (file data : Bytes) :
    (∀ p, (assemble file { strict := true } (.ofBytes data)).result = .ok p →
      (assemble file { strict := true, extended := true } (.ofBytes data)).result = .ok p) ∧
    (∀ p, (assemble file { extended := true } (.ofBytes data)).result = .ok p →
      ∃ (q : Program) (yields : List (List Instruction)),
        (assemble file {} (.ofBytes data)).result = .ok q ∧
        q.labels = p.labels ∧ q.warnings = p.warnings ∧
        q.instructions.length = p.instructions.length ∧
        (Line.ofSource data).map (emitLine { extended := true }) = yields.map .ok ∧
        p.instructions = yields.flatten ∧
        ∀ k < p.instructions.length, ∃ j text,
          (Line.ofSource data)[j]? = some (.instruction text) ∧ EmittedBy yields j k ∧
          (p.instructions[k]? ≠ q.instructions[k]? ↔ Line.mnemonic text ∈ extendedNames) ∧
          (Line.mnemonic text ∈ extendedNames → q.instructions[k]? = some (.unknown 0))) ∧
    ∀ (mode other : Mode) (p q : Program),
      (assemble file mode (.ofBytes data)).result = .ok p →
      (assemble file other (.ofBytes data)).result = .ok q →
      p.labels = q.labels ∧ p.warnings = q.warnings := by
  refine ⟨?_, ?_, ?_⟩
  · intro p assembled
    obtain ⟨named, yields, emitted, rfl⟩ := (assemble_eq_ok_iff ..).1 assembled
    have extended := (emitted_iff_map_eq.2 emitted).extended_of_strict
    exact (assemble_eq_ok_iff ..).2 ⟨named, yields, emitted_iff_map_eq.1 extended, rfl⟩
  · intro p assembled
    obtain ⟨named, wides, emitted, rfl⟩ := (assemble_eq_ok_iff ..).1 assembled
    obtain ⟨narrows, without, same, placed⟩ := (emitted_iff_map_eq.2 emitted).exists_narrow
    refine ⟨_, wides, (assemble_eq_ok_iff ..).2 ⟨named, narrows, emitted_iff_map_eq.1 without, rfl⟩,
      rfl, rfl, same, emitted, rfl, ?_⟩
    intro k inside
    obtain ⟨j, text, line, emittedBy, replaced⟩ := placed k inside
    exact ⟨j, text, line, emittedBy, replaced.differ_iff, replaced.zero⟩
  · intro mode other p q first second
    -- Labels are placed before any line is assembled, by counts that do not look at the mode.
    obtain ⟨-, _, -, rfl⟩ := (assemble_eq_ok_iff ..).1 first
    obtain ⟨-, _, -, rfl⟩ := (assemble_eq_ok_iff ..).1 second
    exact ⟨rfl, rfl⟩

theorem extended_is_conservative_of_mixed :
    ∃ p q, (assemble [] { extended := true }
        (.ofBytes (utf8 "stpush \"abcd\"\na:\nLSR\nfrob"))).result = .ok p ∧
      (assemble [] {} (.ofBytes (utf8 "stpush \"abcd\"\na:\nLSR\nfrob"))).result = .ok q ∧
      p.instructions = [.push 0x64, .push 0x01636261, .binary 11, .unknown 0] ∧
      p.instructions[2]? ≠ q.instructions[2]? ∧ q.labels = p.labels ∧
      q.instructions.length = p.instructions.length := by
  have assembled : (assemble [] { extended := true }
      (.ofBytes (utf8 "stpush \"abcd\"\na:\nLSR\nfrob"))).result =
        .ok ⟨[.push 0x64, .push 0x01636261, .binary 11, .unknown 0], [⟨utf8 "a", 2, 8⟩], []⟩ :=
    rfl
  obtain ⟨q, yields, without, labels, -, same, -, -, -⟩ :=
    (extended_is_conservative [] (utf8 "stpush \"abcd\"\na:\nLSR\nfrob")).2.1 _ assembled
  refine ⟨_, q, assembled, without, rfl, ?_, labels, same⟩
  cases without
  decide

end StackAsm
