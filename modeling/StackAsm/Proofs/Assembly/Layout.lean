import Mathlib.Logic.Relation
import StackAsm.Proofs.Assembly.Emission
import StackAsm.Proofs.Assembly.LabelTable
import StackAsm.Proofs.Source.Layout

set_option autoImplicit false

namespace StackAsm

open Ascii

namespace Assembly

theorem emitFrom_append_blank (file : Bytes) (mode : Mode) (above : Nat) (ls : List Line) :
    emitFrom file mode above (ls ++ [.blank]) = (emitFrom file mode above ls).map (· ++ [[]]) := by
  induction ls generalizing above with
  | nil => rfl
  | cons l ls ih =>
    rw [List.cons_append, emitFrom, emitFrom, ih]
    cases emitLine mode l with
    | error problem => rfl
    | ok is => cases emitFrom file mode (above + 1) ls <;> rfl

theorem zeroWordsFrom_append_blank (file : Bytes) (mode : Mode) (above : Nat) (ls : List Line) :
    zeroWordsFrom file mode above (ls ++ [.blank]) = zeroWordsFrom file mode above ls := by
  induction ls generalizing above with
  | nil => rfl
  | cons l ls ih => simp only [List.cons_append, zeroWordsFrom, ih]

theorem ofLines_append_blank (file : Bytes) (mode : Mode) (ls : List Line) :
    ofLines file mode (ls ++ [.blank]) = ofLines file mode ls := by
  by_cases unnamed : Line.label [] ∈ ls
  next =>
    -- The walk over the labels does not get to the last line.
    have fewer := (length_wellLabelled_lt_iff ls).2 unnamed
    have same : wellLabelled (ls ++ [.blank]) = wellLabelled ls := by
      have short : ((ls.takeWhile (· ≠ .label [])).length = ls.length) = False :=
        eq_false (Nat.ne_of_lt fewer)
      simp only [wellLabelled, List.takeWhile_append, short, ↓reduceIte]
    have still : (wellLabelled ls).length < (ls ++ [Line.blank]).length := by
      rw [List.length_append]
      omega
    simp only [ofLines, same, fewer, still, ↓reduceIte]
  next =>
    have whole := (wellLabelled_eq_self_iff ls).2 unnamed
    have longer := (wellLabelled_eq_self_iff (ls ++ [.blank])).2 (by simp [unnamed])
    have declared : Label.declarations (ls ++ [.blank]) = Label.declarations ls := by
      rw [Label.declarations_append]
      exact List.append_nil _
    have size : sizeOfLines (ls ++ [.blank]) = sizeOfLines ls := by
      rw [sizeOfLines_append]
      rfl
    simp only [ofLines, whole, longer, declared, size, emitFrom_append_blank,
      zeroWordsFrom_append_blank, Nat.lt_irrefl, ↓reduceIte]
    cases emitFrom file mode 0 ls <;> simp [Except.map]

end Assembly

namespace Line

-- What the parts between the line feeds mean, the last included if it is empty.
def ofParts (data : Bytes) : List Line :=
  (data.splitOn lineFeed).map classify

theorem ofParts_eq_ofSource (data : Bytes) :
    ofParts data = ofSource data ∨ ofParts data = ofSource data ++ [.blank] := by
  have chomped (ls : List Bytes) : (ls.map chomp).map classify = ls.map classify := by
    rw [List.map_map]
    exact List.map_congr_left fun l _ => classify_chomp l
  by_cases ended : (data.splitOn lineFeed).getLast? = some []
  next =>
    right
    obtain ⟨front, parts⟩ := List.getLast?_eq_some_iff.1 ended
    have source : sourceLines data = front.map chomp := by
      simp only [sourceLines, parts, List.getLast?_concat, List.dropLast_concat, ↓reduceIte]
      rfl
    rw [ofParts, parts, ofSource, source, chomped, List.map_append]
    rfl
  next =>
    left
    have source : sourceLines data = (data.splitOn lineFeed).map chomp := by
      simp only [sourceLines, ended, ↓reduceIte]
      rfl
    rw [ofParts, ofSource, source, chomped]

theorem ofParts_of_unbroken {line : Bytes} (unbroken : lineFeed ∉ line) :
    ofParts line = [classify line] := by
  rw [ofParts, List.splitOn_eq_singleton unbroken]
  rfl

theorem ofParts_append (body rest : Bytes) :
    ofParts (body ++ lineFeed :: rest) = ofParts body ++ ofParts rest := by
  rw [ofParts, List.splitOn_append_cons_self, List.map_append]
  rfl

end Line

theorem assemble_eq_ofParts (file : Bytes) (mode : Mode) (data : Bytes) :
    assemble file mode (.ofBytes data) = Assembly.ofLines file mode (Line.ofParts data) := by
  have lines : assemble file mode (.ofBytes data) =
      Assembly.ofLines file mode (Line.ofSource data) := rfl
  rcases Line.ofParts_eq_ofSource data with same | longer
  · rw [lines, same]
  · rw [lines, longer, Assembly.ofLines_append_blank]

def withCarriageReturns (data : Bytes) : Bytes :=
  data.flatMap fun b => if b = lineFeed then [carriageReturn, lineFeed] else [b]

theorem withCarriageReturns_of_unbroken {line : Bytes} (unbroken : lineFeed ∉ line) :
    withCarriageReturns line = line := by
  induction line with
  | nil => rfl
  | cons b line ih =>
    rw [List.mem_cons, not_or] at unbroken
    rw [withCarriageReturns, List.flatMap_cons, if_neg (Ne.symm unbroken.1)]
    exact congrArg (b :: ·) (ih unbroken.2)

theorem ofParts_withCarriageReturns (data : Bytes) :
    Line.ofParts (withCarriageReturns data) = Line.ofParts data := by
  induction data using induction_lines with
  | last line unbroken => rw [withCarriageReturns_of_unbroken unbroken]
  | line line rest unbroken ih =>
    have split : withCarriageReturns (line ++ lineFeed :: rest) =
        (line ++ [carriageReturn]) ++ lineFeed :: withCarriageReturns rest := by
      rw [withCarriageReturns, List.flatMap_append]
      simpa [withCarriageReturns] using withCarriageReturns_of_unbroken unbroken
    have returned : lineFeed ∉ line ++ [carriageReturn] := by
      simpa [lineFeed, carriageReturn] using unbroken
    rw [split, Line.ofParts_append, Line.ofParts_append, ih, Line.ofParts_of_unbroken returned,
      Line.ofParts_of_unbroken unbroken, Line.classify_append_blank (by decide)]

namespace Line

/-- A line and the same with another layout: white space before or behind it, or a comment, which
would be taken for text behind a literal that is left open. -/
inductive Relaid : Bytes → Bytes → Prop where
  | indented {line w : Bytes} (white : isBlankText w) (unbroken : lineFeed ∉ w) :
    Relaid line (w ++ line)
  | trailed {line w : Bytes} (white : isBlankText w) (unbroken : lineFeed ∉ w) :
    Relaid line (line ++ w)
  | commented {line : Bytes} (note : Bytes) (outside : endsQuoted false line = false)
    (unbroken : lineFeed ∉ note) : Relaid line (line ++ numberSign :: note)

theorem Relaid.classify_eq {line edited : Bytes} (edit : Relaid line edited) :
    classify edited = classify line := by
  cases edit with
  | indented white => exact classify_blank_append white line
  | trailed white => exact classify_append_blank white line
  | commented note outside => exact classify_append_comment outside note

theorem Relaid.not_mem {line edited : Bytes} (edit : Relaid line edited)
    (unbroken : lineFeed ∉ line) : lineFeed ∉ edited := by
  have visible : lineFeed ≠ numberSign := by decide
  cases edit with
  | indented white absent | trailed white absent => simp [unbroken, absent]
  | commented note outside absent => simp [unbroken, absent, visible]

theorem ofParts_line {line below : Bytes} (unbroken : lineFeed ∉ line)
    (starts : below = [] ∨ below.head? = some lineFeed) :
    ofParts (line ++ below) = classify line :: (ofParts below).tail := by
  rcases starts with rfl | first
  · rw [List.append_nil, ofParts_of_unbroken unbroken]
    rfl
  · obtain ⟨rest, rfl⟩ := List.head?_eq_some_iff.1 first
    have alone : ofParts (lineFeed :: rest) = .blank :: ofParts rest := ofParts_append [] rest
    rw [ofParts_append, ofParts_of_unbroken unbroken, alone]
    rfl

end Line

/-- A source and the same with another layout. A line that is edited ends at a line feed or at the
end of the source, with a carriage return before it or without. -/
inductive Relaid : Bytes → Bytes → Prop where
  | carriageReturns (data : Bytes) : Relaid data (withCarriageReturns data)
  | closed (data : Bytes) : Relaid data (data ++ [lineFeed])
  | line (above : Bytes) {line edited : Bytes} (ending below : Bytes) (starts : Closed above)
    (unbroken : lineFeed ∉ line) (edit : Line.Relaid line edited)
    (returns : ending ∈ [[], [carriageReturn]])
    (ends : below = [] ∨ below.head? = some lineFeed) :
    Relaid (above ++ (line ++ ending ++ below)) (above ++ (edited ++ ending ++ below))

theorem Relaid.ofParts_eq {data edited : Bytes} (edit : Relaid data edited) :
    Line.ofParts edited = Line.ofParts data ∨
      Line.ofParts edited = Line.ofParts data ++ [.blank] := by
  cases edit with
  | carriageReturns => exact .inl (ofParts_withCarriageReturns data)
  | closed => exact .inr (Line.ofParts_append data [])
  | @line above line edited ending below starts unbroken edit returns ends =>
    left
    have white : isBlankText ending ∧ lineFeed ∉ ending := by
      simp only [List.mem_cons, List.not_mem_nil, or_false] at returns
      rcases returns with rfl | rfl <;> decide
    have whole {text : Bytes} (absent : lineFeed ∉ text) : lineFeed ∉ text ++ ending := by
      simp [absent, white.2]
    have here : Line.ofParts (edited ++ ending ++ below) =
        Line.ofParts (line ++ ending ++ below) := by
      rw [Line.ofParts_line (whole (edit.not_mem unbroken)) ends,
        Line.ofParts_line (whole unbroken) ends, Line.classify_append_blank white.1,
        Line.classify_append_blank white.1, edit.classify_eq]
    rcases starts.eq_nil_or_concat with rfl | ⟨body, rfl⟩
    · exact here
    · have lower (rest : Bytes) : Line.ofParts (body ++ [lineFeed] ++ rest) =
          Line.ofParts body ++ Line.ofParts rest := by
        rw [List.append_assoc]
        exact Line.ofParts_append body rest
      rw [lower, lower, here]

/-- Layout does not matter: after any number of edits, a source comes to the same program or failure
and leaves the same log. -/
theorem layout_does_not_change_assembly {data edited : Bytes}
    (edits : Relation.ReflTransGen Relaid data edited) (file : Bytes) (mode : Mode) :
    assemble file mode (.ofBytes edited) = assemble file mode (.ofBytes data) := by
  induction edits with
  | refl => rfl
  | tail _ edit ih =>
    rw [← ih, assemble_eq_ofParts, assemble_eq_ofParts]
    rcases edit.ofParts_eq with same | longer
    · rw [same]
    · rw [longer, Assembly.ofLines_append_blank]

def Relaid.literalSource : Bytes :=
  utf8 "a:\nstpush \"#\\\"" ++ [0xFF] ++ utf8 "\""

theorem layout_does_not_change_assembly_of_literal :
    assemble [] {} (.ofBytes (utf8 "a:#\"\r\n" ++ [0xE3, 0x80, 0x80] ++ utf8 "stpush \"#\\\"" ++
      [0xFF] ++ utf8 "\"\n")) = assemble [] {} (.ofBytes Relaid.literalSource) ∧
    (assemble [] {} (.ofBytes Relaid.literalSource)).result =
      .ok ⟨[.push 0xFF2223], [⟨utf8 "a", 1, 0⟩], []⟩ := by
  have comment : Line.Relaid (utf8 "a:") (utf8 "a:#\"") :=
    .commented (utf8 "\"") (by decide) (by decide)
  have space : Line.Relaid (utf8 "stpush \"#\\\"" ++ [0xFF] ++ utf8 "\"")
      ([0xE3, 0x80, 0x80] ++ (utf8 "stpush \"#\\\"" ++ [0xFF] ++ utf8 "\"")) :=
    .indented (by decide +kernel) (by decide)
  have commented : Relaid Relaid.literalSource
      (utf8 "a:#\"\nstpush \"#\\\"" ++ [0xFF] ++ utf8 "\"") :=
    .line [] [] _ (.inl rfl) (by decide) comment (by decide) (.inr rfl)
  have indented : Relaid (utf8 "a:#\"\nstpush \"#\\\"" ++ [0xFF] ++ utf8 "\"")
      (utf8 "a:#\"\n" ++ [0xE3, 0x80, 0x80] ++ utf8 "stpush \"#\\\"" ++ [0xFF] ++ utf8 "\"") :=
    .line (utf8 "a:#\"\n") [] [] (.inr rfl) (by decide) space (by decide) (.inl rfl)
  have edits := (((Relation.ReflTransGen.single commented).tail indented).tail
    (.carriageReturns _)).tail (.closed _)
  exact ⟨layout_does_not_change_assembly edits [] {}, rfl⟩

end StackAsm
