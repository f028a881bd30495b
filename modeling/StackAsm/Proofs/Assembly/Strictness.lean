import StackAsm.Proofs.Assembly.Emission
import StackAsm.Proofs.Assembly.Rejection

set_option autoImplicit false

namespace StackAsm

def Cause.isUnsupported : Cause → Bool
  | .badLine _ _ problem => problem.isUnsupported
  | _ => false

-- The line at which an assembly was given up for a mnemonic.
def Failure.refusedLine? : Failure → Option Nat
  | ⟨[], .badLine _ number problem⟩ => if problem.isUnsupported then some number else none
  | _ => none

theorem Failure.refusedLine?_lineFailure (file : Bytes) (number : Nat) (problem : LineProblem) :
    (Assembly.lineFailure file number problem).refusedLine? =
      if problem.isUnsupported then some number else none :=
  rfl

theorem Failure.refusedLine?_of_form (file : Bytes) (number : Nat) {problem : LineProblem}
    (form : problem.isUnsupported = false) :
    (Assembly.lineFailure file number problem).refusedLine? = none ∧
      (Assembly.lineFailure file number problem).cause.isUnsupported = false := by
  rw [refusedLine?_lineFailure, form]
  exact ⟨rfl, form⟩

theorem Failure.refusedLine?_of_unsupported (file : Bytes) (number : Nat) {problem : LineProblem}
    (unsupported : problem.isUnsupported = true) :
    (Assembly.lineFailure file number problem).refusedLine? = some number := by
  rw [refusedLine?_lineFailure, if_pos unsupported]

namespace Statement

theorem isUnsupported_refusal (text : Bytes) : (refusal text).isUnsupported = true := by
  rw [refusal]
  split <;> rfl

end Statement

namespace Assembly

inductive LineCompared :
    Except LineProblem (List Instruction) → Except LineProblem (List Instruction) → Prop where
  | built {is : List Instruction} (known : AllKnown is) : LineCompared (.ok is) (.ok is)
  | malformed {problem : LineProblem} (form : problem.isUnsupported = false) :
    LineCompared (.error problem) (.error problem)
  | refused {problem : LineProblem} (unsupported : problem.isUnsupported = true) :
    LineCompared (.error problem) (.ok [.unknown 0])

theorem lineCompared_emitLine (extended : Bool) (l : Line) :
    LineCompared (emitLine { strict := true, extended } l)
      (emitLine { strict := false, extended } l) := by
  cases l with
  | blank | label name => exact .built (by simp [AllKnown])
  | instruction text =>
    simp only [emitLine]
    cases found : Mnemonic.find? extended (Line.mnemonic text) with
    | none =>
      rw [Statement.emit_unrecognised { strict := true, extended } found,
        Statement.emit_unrecognised { strict := false, extended } found]
      exact .refused (Statement.isUnsupported_refusal text)
    | some m =>
      -- A recognised line is built in the same way, whether that succeeds or not.
      rw [Statement.emit_recognised { strict := true, extended } found,
        Statement.emit_recognised { strict := false, extended } found]
      cases outcome : Statement.build m (Line.rest text) (Line.operands text) with
      | ok is => exact .built (Statement.allKnown_of_build outcome)
      | error problem =>
        exact .malformed (Statement.rejects_build m _ _ problem outcome).isUnsupported

inductive RunCompared (file : Bytes) (above : Nat) : Except Failure (List (List Instruction)) →
    Except Failure (List (List Instruction)) → Prop where
  | built {yields : List (List Instruction)} (known : ∀ is ∈ yields, AllKnown is) :
    RunCompared file above (.ok yields) (.ok yields)
  | malformed {number : Nat} {problem : LineProblem} (form : problem.isUnsupported = false)
    (below : above < number) : RunCompared file above (.error (lineFailure file number problem))
      (.error (lineFailure file number problem))
  | passed {k : Nat} {problem : LineProblem} {yields : List (List Instruction)}
    (unsupported : problem.isUnsupported = true) (zero : yields[k]? = some [.unknown 0]) :
    RunCompared file above (.error (lineFailure file (above + k + 1) problem)) (.ok yields)
  | delayed {number later : Nat} {problem other : LineProblem}
    (unsupported : problem.isUnsupported = true) (form : other.isUnsupported = false)
    (below : above < number) (order : number < later) :
    RunCompared file above (.error (lineFailure file number problem))
      (.error (lineFailure file later other))

theorem RunCompared.cons {file : Bytes} {above : Nat} {is : List Instruction}
    {strictly leniently : Except Failure (List (List Instruction))} (known : AllKnown is)
    (rest : RunCompared file (above + 1) strictly leniently) :
    RunCompared file above (strictly.map (is :: ·)) (leniently.map (is :: ·)) := by
  cases rest with
  | built allKnown => exact .built (List.forall_mem_cons.2 ⟨known, allKnown⟩)
  | malformed form below => exact .malformed form (by omega)
  | @passed k problem yields unsupported zero =>
    -- The same line has one more line above it in the longer list, and stands one place further.
    have passed : RunCompared file above (.error (lineFailure file (above + (k + 1) + 1) problem))
        (.ok (is :: yields)) := .passed unsupported (by simpa using zero)
    rwa [show above + (k + 1) + 1 = above + 1 + k + 1 by omega] at passed
  | delayed unsupported form below order => exact .delayed unsupported form (by omega) order

theorem RunCompared.lenient {file : Bytes} {above : Nat}
    {strictly leniently : Except Failure (List (List Instruction))}
    (run : RunCompared file above strictly leniently) :
    (∃ yields, leniently = .ok yields) ∨ ∃ number problem, above < number ∧
      problem.isUnsupported = false ∧ leniently = .error (lineFailure file number problem) := by
  cases run with
  | built | passed => exact .inl ⟨_, rfl⟩
  | malformed form below => exact .inr ⟨_, _, below, form, rfl⟩
  | delayed _ form below order => exact .inr ⟨_, _, by omega, form, rfl⟩

theorem runCompared_emitFrom (file : Bytes) (extended : Bool) (above : Nat) (ls : List Line) :
    RunCompared file above (emitFrom file { strict := true, extended } above ls)
      (emitFrom file { strict := false, extended } above ls) := by
  induction ls generalizing above with
  | nil => exact .built (by simp)
  | cons l ls ih =>
    have rest := ih (above + 1)
    have line := lineCompared_emitLine extended l
    rw [emitFrom, emitFrom]
    generalize emitLine { strict := true, extended } l = here at line
    generalize emitLine { strict := false, extended } l = there at line
    cases line with
    | built known => exact rest.cons known
    | malformed form => exact .malformed form (by omega)
    | refused unsupported =>
      -- The strict assembly ends here, whatever it would have made of the lines below.
      rcases rest.lenient with ⟨yields, whole⟩ | ⟨number, problem, below, form, failed⟩
      · simp only [whole, Except.map]
        exact .passed (k := 0) unsupported rfl
      · simp only [failed, Except.map]
        exact .delayed unsupported form (by omega) below

inductive ProgramCompared (file : Bytes) (extended : Bool) (input : Input) :
    Except Failure Program → Except Failure Program → Prop where
  | built {p : Program} (known : AllKnown p.instructions) :
    ProgramCompared file extended input (.ok p) (.ok p)
  | failed {f : Failure} (unrefused : f.refusedLine? = none)
    (reported : f.cause.isUnsupported = true → input.failure = some f.cause) :
    ProgramCompared file extended input (.error f) (.error f)
  | passed {number k : Nat} {problem : LineProblem} {p : Program}
    {yields : List (List Instruction)} (unsupported : problem.isUnsupported = true)
    (emitted : (Line.ofSource input.data).map (emitLine { strict := false, extended }) =
      yields.map .ok)
    (flat : p.instructions = yields.flatten) (line : number = k + 1)
    (zero : yields[k]? = some [.unknown 0]) :
    ProgramCompared file extended input (.error (lineFailure file number problem)) (.ok p)
  | delayed {number later : Nat} {problem other : LineProblem}
    (unsupported : problem.isUnsupported = true) (form : other.isUnsupported = false)
    (order : number < later) :
    ProgramCompared file extended input (.error (lineFailure file number problem))
      (.error (lineFailure file later other))

theorem programCompared_assemble (file : Bytes) (extended : Bool) (input : Input) :
    ProgramCompared file extended input (assemble file { strict := true, extended } input).result
      (assemble file { strict := false, extended } input).result := by
  have syntactic {number : Nat} {problem : LineProblem} (form : problem.isUnsupported = false) :
      ProgramCompared file extended input (.error (lineFailure file number problem))
        (.error (lineFailure file number problem)) := by
    obtain ⟨unrefused, supported⟩ := Failure.refusedLine?_of_form file number form
    exact .failed unrefused (by simp [supported])
  obtain ⟨data, failure⟩ := input
  cases failure with
  | some cause =>
    rw [assemble_of_failure, assemble_of_failure]
    exact .failed rfl fun _ => rfl
  | none =>
    rw [assemble_of_whole, assemble_of_whole]
    by_cases unnamed : Line.label [] ∈ Line.ofSource data
    next =>
      rw [ofLines_of_unnamed _ _ unnamed, ofLines_of_unnamed _ _ unnamed]
      exact syntactic rfl
    next =>
      have run := runCompared_emitFrom file extended 0 (Line.ofSource data)
      have emitted := emitFrom_eq_ok_iff file { strict := false, extended } 0 (Line.ofSource data)
      rw [ofLines_of_named _ _ unnamed, ofLines_of_named _ _ unnamed]
      generalize emitFrom file { strict := true, extended } 0 (Line.ofSource data) = strictly
        at run
      generalize emitFrom file { strict := false, extended } 0 (Line.ofSource data) = leniently
        at run emitted
      cases run with
      | built known =>
        apply ProgramCompared.built
        intro i member
        obtain ⟨is, among, inside⟩ := List.mem_flatten.1 member
        exact known is among i inside
      | malformed form => exact syntactic form
      | passed unsupported zero =>
        exact .passed unsupported ((emitted _).1 rfl) rfl (by omega) zero
      | delayed unsupported form _ order => exact .delayed unsupported form order

end Assembly

-- Such a reader: its report is passed on, and no line of the source is named by it.
theorem lenient_failure_of_reported_mnemonic :
    ∃ f, (assemble [] {} (.failingAfter 4
        (.badLine (utf8 "lib") 7 (.unknownMnemonic (utf8 "Frob"))) (utf8 "nop\nexit"))).result =
        .error f ∧
      f.cause.isUnsupported = true ∧ f.refusedLine? = none ∧
      f.message = utf8 "line 2: read failed: lib:7: unknown mnemonic \"Frob\"" :=
  ⟨_, rfl, rfl, rfl, by decide +kernel⟩

end StackAsm
