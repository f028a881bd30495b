import StackAsm.Proofs.Assembly.Emission
import StackAsm.Proofs.Assembly.LabelTable
import StackAsm.Proofs.Source.Lines

set_option autoImplicit false

namespace StackAsm

open Ascii

theorem Line.ofSource_append {s : Bytes} (closed : Closed s) (rest : Bytes) :
    ofSource (s ++ rest) = ofSource s ++ ofSource rest := by
  rw [ofSource, sourceLines_append closed, List.map_append]
  rfl

theorem Line.length_ofSource_of_closed {s : Bytes} (closed : Closed s) :
    (ofSource s).length = s.count lineFeed := by
  rw [ofSource, List.length_map, length_sourceLines_of_closed closed]

-- A program that is made of two, of which the first has the lines `above`.
structure Program.Joined (file : Bytes) (above below : List Line) (whole first second : Program) :
    Prop where
  instructions_eq : whole.instructions = first.instructions ++ second.instructions
  labels_eq : whole.labels = first.labels ++
    (second.labels.filter fun l => (first.labels.lookup l.name).isNone).map
      (Label.shift above.length (sizeOfLines above))
  warnings_eq : whole.warnings = first.warnings ++
    (List.range below.length).filterMap (Warning.atLine? file above below)
  told_eq : whole.warnings.map Warning.told = first.warnings.map Warning.told ++
    (List.range below.length).filterMap (Warning.toldAtLine? file above below)

namespace Assembly

theorem exists_ofLines_append (file : Bytes) (mode : Mode) (above below : List Line) :
    (∃ p, (ofLines file mode (above ++ below)).result = .ok p) ↔
      (∃ p, (ofLines file mode above).result = .ok p) ∧
        ∃ p, (ofLines file mode below).result = .ok p := by
  simp only [exists_ofLines_iff, List.forall_mem_append]

theorem joined_ofLines {file : Bytes} {mode : Mode} {above below : List Line}
    {first second whole : Program} (before : (ofLines file mode above).result = .ok first)
    (behind : (ofLines file mode below).result = .ok second)
    (together : (ofLines file mode (above ++ below)).result = .ok whole) :
    whole.Joined file above below first second := by
  obtain ⟨-, yields, emitted, rfl⟩ := (ofLines_eq_ok_iff ..).1 before
  obtain ⟨-, others, emittedBelow, rfl⟩ := (ofLines_eq_ok_iff ..).1 behind
  obtain ⟨-, all, emittedAll, rfl⟩ := (ofLines_eq_ok_iff ..).1 together
  have same : all = yields ++ others := by
    rw [List.map_append, emitted, emittedBelow, ← List.map_append] at emittedAll
    exact (List.map_inj_right fun _ _ => Except.ok.inj).1 emittedAll.symm
  have warned : Label.warnings file (Label.declarations (above ++ below)) =
      Label.warnings file (Label.declarations above) ++
        (List.range below.length).filterMap (Warning.atLine? file above below) := by
    rw [Label.declarations_append, Label.warnings, Label.warningsFrom_append]
    exact congrArg _ (Label.warningsFrom_table file above below)
  constructor
  · exact same ▸ List.flatten_append
  · simp only [Label.declarations_append, Label.table_append, Label.declarationsFrom_eq_map_shift,
      Label.table_map_shift, List.filter_map]
    rfl
  · exact warned
  · simp only [warned, List.map_append, Warning.map_told_filterMap]

end Assembly

/-- Assembly is compositional: of two sources, the first ended by a line feed, each is assembled as
if it were alone, but for the places of the second and the names that both declare. -/
theorem assemble_append {first : Bytes} (closed : first = [] ∨ first.getLast? = some lineFeed)
    (second file : Bytes) (mode : Mode) :
    ((∃ p, (assemble file mode (.ofBytes (first ++ second))).result = .ok p) ↔
      (∃ p, (assemble file mode (.ofBytes first)).result = .ok p) ∧
        ∃ p, (assemble file mode (.ofBytes second)).result = .ok p) ∧
    (Line.ofSource first).length = first.count lineFeed ∧
    ∀ p q whole, (assemble file mode (.ofBytes first)).result = .ok p →
      (assemble file mode (.ofBytes second)).result = .ok q →
      (assemble file mode (.ofBytes (first ++ second))).result = .ok whole →
      whole.Joined file (Line.ofSource first) (Line.ofSource second) p q := by
  have lines : assemble file mode (.ofBytes (first ++ second)) =
      Assembly.ofLines file mode (Line.ofSource first ++ Line.ofSource second) := by
    rw [← Line.ofSource_append closed]
    rfl
  rw [lines]
  refine ⟨Assembly.exists_ofLines_append .., Line.length_ofSource_of_closed closed, ?_⟩
  intro p q whole before behind together
  exact Assembly.joined_ofLines before behind together

-- Both parts declare `a`, which stays where it was, and the second part declares `b` twice.
theorem assemble_append_of_shared_names :
    ∃ p,
      (assemble [] {} (.ofBytes (utf8 "nop\na:\n" ++ utf8 "b:\na:\nexit\nb:"))).result = .ok p ∧
      p.instructions = [.nop] ++ [.exit 0] ∧
      p.labels = [⟨utf8 "a", 2, 4⟩] ++ [Label.shift 2 4 ⟨utf8 "b", 1, 0⟩] ∧
      p.warnings = [] ++ [⟨[], 2 + 2, utf8 "a", 2⟩, ⟨[], 2 + 4, utf8 "b", 3⟩] ∧
      p.warnings.map Warning.told =
        [([], 2 + 2, utf8 "duplicate label \"a\", first declared at line 2"),
          ([], 2 + 4, utf8 "duplicate label \"b\", first declared at line 3")] := by
  have before : (assemble [] {} (.ofBytes (utf8 "nop\na:\n"))).result =
      .ok ⟨[.nop], [⟨utf8 "a", 2, 4⟩], []⟩ :=
    rfl
  have behind : (assemble [] {} (.ofBytes (utf8 "b:\na:\nexit\nb:"))).result =
      .ok ⟨[.exit 0], [⟨utf8 "b", 1, 0⟩, ⟨utf8 "a", 2, 0⟩], [⟨[], 4, utf8 "b", 1⟩]⟩ :=
    rfl
  have closed : (utf8 "nop\na:\n").getLast? = some lineFeed := rfl
  obtain ⟨both, -, joined⟩ := assemble_append (.inr closed) (utf8 "b:\na:\nexit\nb:") [] {}
  obtain ⟨p, together⟩ := both.2 ⟨⟨_, before⟩, ⟨_, behind⟩⟩
  have parts := joined _ _ p before behind together
  refine ⟨p, together, parts.instructions_eq, parts.labels_eq, parts.warnings_eq, ?_⟩
  rw [parts.told_eq]
  decide +kernel

end StackAsm
