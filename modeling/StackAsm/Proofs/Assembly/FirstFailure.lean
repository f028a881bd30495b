import StackAsm.Proofs.Assembly.Emission
import StackAsm.Proofs.Source.Layout

set_option autoImplicit false

/-!
Which failure an assembly reports. Reading comes before labels and labels before instructions, and
each of the three gives up at its own first line, so malformed lines may stand above the one that is
reported. Within a phase no line depends on another.
-/

namespace StackAsm

open Ascii

inductive FirstAt {α : Type} (P : α → Prop) : List α → Nat → α → Prop where
  | head {x : α} {xs : List α} (holds : P x) : FirstAt P (x :: xs) 0 x
  | tail {y : α} {xs : List α} {k : Nat} {x : α} (fails : ¬P y) (later : FirstAt P xs k x) :
    FirstAt P (y :: xs) (k + 1) x

namespace FirstAt

variable {α β : Type} {P : α → Prop}

theorem exists_of_mem {xs : List α} (some : ∃ x ∈ xs, P x) : ∃ k x, FirstAt P xs k x := by
  induction xs with
  | nil =>
    obtain ⟨x, member, -⟩ := some
    cases member
  | cons x xs ih =>
    by_cases holds : P x
    next => exact ⟨0, x, .head holds⟩
    next =>
      have later : ∃ y ∈ xs, P y := by simpa [holds] using some
      obtain ⟨k, y, first⟩ := ih later
      exact ⟨k + 1, y, .tail holds first⟩

theorem map {f : β → α} {xs : List β} {k : Nat} {x : β}
    (first : FirstAt (fun y => P (f y)) xs k x) : FirstAt P (xs.map f) k (f x) := by
  induction first with
  | head holds => exact .head holds
  | tail fails _ ih => exact .tail fails ih

theorem congr {Q : α → Prop} {xs : List α} {k : Nat} {x : α} (same : ∀ y ∈ xs, P y ↔ Q y)
    (first : FirstAt P xs k x) : FirstAt Q xs k x := by
  induction first with
  | head holds => exact .head ((same _ List.mem_cons_self).1 holds)
  | tail fails _ ih =>
    rw [List.forall_mem_cons] at same
    exact .tail (fun holds => fails (same.1.2 holds)) (ih same.2)

theorem mem {xs : List α} {k : Nat} {x : α} (first : FirstAt P xs k x) : x ∈ xs := by
  induction first with
  | head => exact List.mem_cons_self
  | tail _ _ ih => exact List.mem_cons_of_mem _ ih

theorem holds {xs : List α} {k : Nat} {x : α} (first : FirstAt P xs k x) : P x := by
  induction first with
  | head holds => exact holds
  | tail _ _ ih => exact ih

theorem unique {xs : List α} {j k : Nat} {x y : α} (first : FirstAt P xs j x)
    (other : FirstAt P xs k y) : j = k ∧ x = y := by
  induction first generalizing k with
  | head holds =>
    cases other with
    | head => exact ⟨rfl, rfl⟩
    | tail fails => exact absurd holds fails
  | tail fails _ ih =>
    cases other with
    | head holds => exact absurd holds fails
    | tail _ later =>
      obtain ⟨rfl, rfl⟩ := ih later
      exact ⟨rfl, rfl⟩

end FirstAt

namespace Assembly

theorem length_wellLabelled_of_firstAt {ls : List Line} {k : Nat} {l : Line}
    (first : FirstAt (· = .label []) ls k l) : (wellLabelled ls).length = k := by
  rw [wellLabelled]
  induction first with
  | head unnamed => rw [List.takeWhile_cons_of_neg (by simpa using unnamed), List.length_nil]
  | tail named _ ih =>
    rw [List.takeWhile_cons_of_pos (by simpa using named), List.length_cons, ih]

theorem emitFrom_of_firstAt (file : Bytes) {mode : Mode} (above : Nat) {ls : List Line} {k : Nat}
    {l : Line} (first : FirstAt (fun l => ∃ problem, emitLine mode l = .error problem) ls k l)
    {problem : LineProblem} (failed : emitLine mode l = .error problem) :
    emitFrom file mode above ls = .error (lineFailure file (above + k + 1) problem) := by
  induction first generalizing above with
  | head => simp only [emitFrom, failed, Nat.add_zero]
  | @tail other ls k l succeeds _ ih =>
    have rest := ih (above + 1) failed
    have number : above + 1 + k + 1 = above + (k + 1) + 1 := by omega
    cases here : emitLine mode other with
    | error problem => exact absurd ⟨problem, here⟩ succeeds
    | ok is => simp only [emitFrom, here, rest, Except.map, number]

theorem ofLines_of_firstAt_unnamed (file : Bytes) (mode : Mode) {ls : List Line} {k : Nat}
    {l : Line} (first : FirstAt (· = .label []) ls k l) :
    (ofLines file mode ls).result = .error (lineFailure file (k + 1) .emptyLabelName) := by
  have unnamed : Line.label [] ∈ ls := first.holds ▸ first.mem
  rw [ofLines_of_unnamed file mode unnamed, length_wellLabelled_of_firstAt first]

theorem ofLines_of_firstAt_failed (file : Bytes) {mode : Mode} {ls : List Line} {k : Nat} {l : Line}
    (named : .label [] ∉ ls)
    (first : FirstAt (fun l => ∃ problem, emitLine mode l = .error problem) ls k l)
    {problem : LineProblem} (failed : emitLine mode l = .error problem) :
    (ofLines file mode ls).result = .error (lineFailure file (k + 1) problem) := by
  rw [ofLines_of_named file mode named, emitFrom_of_firstAt file 0 first failed, Nat.zero_add]
  rfl

end Assembly

def assembleLine (file : Bytes) (mode : Mode) (raw : Bytes) : Except Failure Program :=
  (assemble file mode (.ofBytes raw)).result

theorem assembleLine_eq_ofLines (file : Bytes) (mode : Mode) {raw : Bytes}
    (unbroken : lineFeed ∉ raw) :
    assembleLine file mode raw = (Assembly.ofLines file mode [.classify raw]).result := by
  have lines := sourceLines_of_unbroken unbroken
  by_cases empty : raw = []
  next =>
    rw [empty]
    rfl
  next =>
    rw [if_neg empty] at lines
    rw [assembleLine, Input.ofBytes, assemble_of_whole, Line.ofSource, lines, List.map_singleton,
      Line.classify_chomp]

theorem assembleLine_of_failed (file : Bytes) {mode : Mode} {raw : Bytes}
    (unbroken : lineFeed ∉ raw) {problem : LineProblem}
    (failed : Assembly.emitLine mode (.classify raw) = .error problem) :
    assembleLine file mode raw = .error (Assembly.lineFailure file 1 problem) := by
  have named : Line.label [] ∉ [Line.classify raw] := by
    rw [List.mem_singleton]
    rintro unnamed
    rw [← unnamed] at failed
    cases failed
  rw [assembleLine_eq_ofLines file mode unbroken]
  exact Assembly.ofLines_of_firstAt_failed file named (.head ⟨problem, failed⟩) failed

theorem emitLine_of_assembleLine {file : Bytes} {mode : Mode} {raw : Bytes}
    (unbroken : lineFeed ∉ raw) {p : Program} (assembled : assembleLine file mode raw = .ok p) :
    Assembly.emitLine mode (.classify raw) = .ok p.instructions := by
  rw [assembleLine_eq_ofLines file mode unbroken, Assembly.ofLines_eq_ok_iff] at assembled
  obtain ⟨-, yields, emitted, rfl⟩ := assembled
  cases yields with
  | nil => cases emitted
  | cons is yields =>
    simp only [List.map_cons, List.map_nil, List.cons.injEq, List.nil_eq,
      List.map_eq_nil_iff] at emitted
    simp [emitted]

theorem assembleLine_eq_error_iff (file : Bytes) (mode : Mode) {raw : Bytes}
    (unbroken : lineFeed ∉ raw) (named : Line.classify raw ≠ .label []) :
    (∃ f, assembleLine file mode raw = .error f) ↔
      ∃ problem, Assembly.emitLine mode (.classify raw) = .error problem := by
  constructor
  · rintro ⟨f, failed⟩
    cases here : Assembly.emitLine mode (.classify raw) with
    | error problem => exact ⟨problem, rfl⟩
    | ok is =>
      obtain ⟨p, assembled⟩ := (Assembly.exists_ofLines_iff file mode [.classify raw]).2 (by
        simpa using ⟨named, is, here⟩)
      rw [assembleLine_eq_ofLines file mode unbroken, assembled] at failed
      cases failed
  · rintro ⟨problem, failed⟩
    exact ⟨_, assembleLine_of_failed file unbroken failed⟩

theorem map_emitLine_of_assembleLine {file : Bytes} {mode : Mode} {raws : List Bytes}
    (unbroken : ∀ raw ∈ raws, lineFeed ∉ raw) {ps : List Program}
    (alone : raws.map (assembleLine file mode) = ps.map .ok) :
    (raws.map Line.classify).map (Assembly.emitLine mode) =
      (ps.map Program.instructions).map .ok := by
  induction raws generalizing ps with
  | nil =>
    cases ps with
    | nil => rfl
    | cons p ps => cases alone
  | cons raw raws ih =>
    cases ps with
    | nil => cases alone
    | cons p ps =>
      rw [List.forall_mem_cons] at unbroken
      simp only [List.map_cons, List.cons.injEq] at alone ⊢
      exact ⟨emitLine_of_assembleLine unbroken.1 alone.1, ih unbroken.2 alone.2⟩

theorem Failure.message_lineReadFailed (number : Nat) (cause : Cause) :
    Failure.message ⟨[.lineReadFailed number], cause⟩ =
      utf8 "line " ++ Numeral.decimal number ++ utf8 ": read failed: " ++ cause.message := by
  have words : utf8 ": read failed: " = utf8 ": read failed" ++ utf8 ": " := rfl
  simp [Failure.message, Step.message, words]

theorem assemble_of_firstAt_unnamed (file : Bytes) (mode : Mode) {data : Bytes}
    (unnamed : ∃ raw ∈ sourceLines data, Line.classify raw = .label []) :
    ∃ k raw, FirstAt (fun raw => Line.classify raw = .label []) (sourceLines data) k raw ∧
      (assemble file mode (.ofBytes data)).result =
        .error (Assembly.lineFailure file (k + 1) .emptyLabelName) := by
  obtain ⟨k, raw, first⟩ := FirstAt.exists_of_mem unnamed
  exact ⟨k, raw, first, Assembly.ofLines_of_firstAt_unnamed file mode first.map⟩

theorem assemble_of_firstAt_failed (file : Bytes) (mode : Mode) {data : Bytes}
    (named : ∀ raw ∈ sourceLines data, Line.classify raw ≠ .label [])
    (failing : ∃ raw ∈ sourceLines data, ∃ f, assembleLine file mode raw = .error f) :
    ∃ k raw text problem,
      FirstAt (fun raw => ∃ f, assembleLine file mode raw = .error f) (sourceLines data) k raw ∧
      Line.classify raw = .instruction text ∧
      assembleLine file mode raw = .error (Assembly.lineFailure file 1 problem) ∧
      (assemble file mode (.ofBytes data)).result =
        .error (Assembly.lineFailure file (k + 1) problem) := by
  obtain ⟨k, raw, first⟩ := FirstAt.exists_of_mem failing
  have unbroken := lineFeed_not_mem_of_mem_sourceLines first.mem
  -- To fail alone and to fail among the others is the same for every line.
  have emitted := first.congr fun raw member => assembleLine_eq_error_iff file mode
    (lineFeed_not_mem_of_mem_sourceLines member) (named raw member)
  obtain ⟨problem, failed⟩ := emitted.holds
  obtain ⟨text, holds⟩ : ∃ text, Line.classify raw = .instruction text := by
    cases here : Line.classify raw with
    | blank | label name =>
      rw [here] at failed
      cases failed
    | instruction text => exact ⟨text, rfl⟩
  refine ⟨k, raw, text, problem, first, holds, assembleLine_of_failed file unbroken failed, ?_⟩
  have absent : Line.label [] ∉ Line.ofSource data := by
    rw [Line.ofSource, List.mem_map]
    rintro ⟨raw, member, unnamed⟩
    exact named raw member unnamed
  exact Assembly.ofLines_of_firstAt_failed file absent (emitted.map (f := Line.classify)) failed

theorem assemble_of_lines_assembled (file : Bytes) (mode : Mode) {data : Bytes}
    (whole : ∀ raw ∈ sourceLines data, ∃ p, assembleLine file mode raw = .ok p) :
    ∃ (ps : List Program) (p : Program),
      (sourceLines data).map (assembleLine file mode) = ps.map .ok ∧
      (assemble file mode (.ofBytes data)).result = .ok p ∧
      p.instructions = ps.flatMap Program.instructions := by
  obtain ⟨ps, alone⟩ := (exists_map_eq_map_ok_iff _ _).2 whole
  have unbroken (raw : Bytes) (member : raw ∈ sourceLines data) : lineFeed ∉ raw :=
    lineFeed_not_mem_of_mem_sourceLines member
  have emitted := map_emitLine_of_assembleLine unbroken alone
  have named : Line.label [] ∉ Line.ofSource data := by
    rw [Line.ofSource, List.mem_map]
    rintro ⟨raw, member, unnamed⟩
    obtain ⟨p, assembled⟩ := whole raw member
    rw [assembleLine_eq_ofLines file mode (unbroken raw member), Assembly.ofLines_eq_ok_iff,
      unnamed] at assembled
    exact assembled.1 List.mem_cons_self
  exact ⟨ps, _, alone, (assemble_eq_ok_iff ..).2 ⟨named, _, emitted, rfl⟩, rfl⟩

-- The three cases are all: a source that can be read fails at one of its lines or not at all.
theorem eq_badLine_of_assemble {file : Bytes} {mode : Mode} {data : Bytes} {f : Failure}
    (failed : (assemble file mode (.ofBytes data)).result = .error f) :
    ∃ number problem, f = .ofCause (.badLine file number problem) := by
  by_cases unnamed : ∃ raw ∈ sourceLines data, Line.classify raw = .label []
  next =>
    obtain ⟨k, -, -, reported⟩ := assemble_of_firstAt_unnamed file mode unnamed
    rw [reported] at failed
    cases failed
    exact ⟨_, _, rfl⟩
  next =>
    simp only [not_exists, not_and] at unnamed
    by_cases failing : ∃ raw ∈ sourceLines data, ∃ f, assembleLine file mode raw = .error f
    next =>
      obtain ⟨k, -, -, problem, -, -, -, reported⟩ :=
        assemble_of_firstAt_failed file mode unnamed failing
      rw [reported] at failed
      cases failed
      exact ⟨_, _, rfl⟩
    next =>
      have whole (raw : Bytes) (member : raw ∈ sourceLines data) :
          ∃ p, assembleLine file mode raw = .ok p := by
        cases alone : assembleLine file mode raw with
        | error f => exact absurd ⟨raw, member, f, alone⟩ failing
        | ok p => exact ⟨p, rfl⟩
      obtain ⟨-, p, -, assembled, -⟩ := assemble_of_lines_assembled file mode whole
      rw [assembled] at failed
      cases failed

end StackAsm
