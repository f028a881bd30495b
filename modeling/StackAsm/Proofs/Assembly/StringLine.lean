import StackAsm.Proofs.Assembly.Emission
import StackAsm.Proofs.Assembly.StringPush
import StackAsm.Proofs.Source.Literal
import StackAsm.Proofs.Text.Splitting

set_option autoImplicit false

namespace StackAsm

open Ascii Literal StringPush

namespace Line

def ofString (indent name gap : Bytes) (bs : Bytes) (tail : Bytes) : Bytes :=
  indent ++ (name ++ (gap ++ (quoted bs ++ tail)))

def stringCode (name gap bs : Bytes) : Bytes :=
  name ++ (gap ++ quoted bs)

theorem isPlain_of_toLower_mem : ∀ b : UInt8, toLower b ∈ utf8 "stpush" → isPlain b :=
  forall_byte (by decide +kernel)

theorem isToken_of_casing {name : Bytes} (casing : name.map toLower = utf8 "stpush") :
    isToken name := by
  simp only [isToken, Bool.and_eq_true, bne_iff_ne, List.all_eq_true]
  constructor
  · rintro rfl
    cases casing
  · intro b member
    apply isPlain_of_toLower_mem
    rw [← casing]
    exact List.mem_map_of_mem member

theorem lower_of_casing {name : Bytes} (casing : name.map toLower = utf8 "stpush") :
    lower name = utf8 "stpush" := by
  have plain := isPlain_of_isToken (isToken_of_casing casing)
  rw [lower_of_ascii fun b member => ascii_of_isPlain b (plain b member), casing]

theorem getLast?_stringCode (name gap bs : Bytes) :
    (stringCode name gap bs).getLast? = some doubleQuote := by
  rw [stringCode, List.getLast?_append, List.getLast?_append, getLast?_quoted]
  rfl

section

variable {indent name gap tail : Bytes} (bs : Bytes)
  (indented : isBlankText indent) (casing : name.map toLower = utf8 "stpush")
  (white : isBlankText gap) (apart : gap ≠ []) (ends : IsTail tail)

include casing in
theorem trim_stringCode : trim (stringCode name gap bs) = stringCode name gap bs := by
  have token := isToken_of_casing casing
  obtain ⟨first, more, rfl⟩ := List.exists_cons_of_ne_nil (ne_nil_of_isToken token)
  have plain := isPlain_of_isToken token first List.mem_cons_self
  exact trim_of_isVisible rfl (getLast?_stringCode _ _ _) (isVisible_of_isPlain _ plain) (by decide)

include indented casing white ends in
theorem classify_ofString :
    classify (ofString indent name gap bs tail) = .instruction (stringCode name gap bs) := by
  have token := isToken_of_casing casing
  have code_eq : code false (ofString indent name gap bs tail) =
      indent ++ (stringCode name gap bs ++ code false tail) := by
    rw [ofString, code_of_isBlankText indented,
      code_append (not_mem_of_isToken (by decide) token) (not_mem_of_isToken (by decide) token),
      code_of_isBlankText white, code_quoted_append]
    simp only [stringCode, List.append_assoc]
  -- The code ends with the quote of the literal, so it is not taken for a label.
  have last : (stringCode name gap bs).getLast? ≠ some colon := by
    rw [getLast?_stringCode]
    decide
  have nonempty : stringCode name gap bs ≠ [] := by
    simp [stringCode, ne_nil_of_isToken token]
  rw [classify, code_eq, trim_append indented ends.isBlankText_code, trim_stringCode bs casing,
    ofText, if_neg nonempty, if_neg last]

include casing white apart in
theorem head_stringCode : head (stringCode name gap bs) = name := by
  rw [head, stringCode, tokens_append_blank (isToken_of_casing casing) white apart,
    List.headD_cons]

include casing white apart in
theorem mnemonic_stringCode : mnemonic (stringCode name gap bs) = utf8 "stpush" := by
  rw [mnemonic, head_stringCode bs casing white apart, lower_of_casing casing]

include casing white apart in
theorem rest_stringCode : rest (stringCode name gap bs) = quoted bs := by
  have behind : trim (gap ++ (quoted bs ++ [])) = trim (quoted bs) := trim_append white rfl _
  rw [List.append_nil] at behind
  rw [rest, head_stringCode bs casing white apart, stringCode, List.drop_left, behind]
  exact trim_of_isVisible (head?_quoted bs) (getLast?_quoted bs) (by decide) (by decide)

include casing white apart in
theorem emit_stringCode (mode : Mode) :
    Statement.emit mode (stringCode name gap bs) = .ok (carriers bs) := by
  have found : Statement.recognised? mode (stringCode name gap bs) = some .stpush :=
    (Mnemonic.find?_stpush_iff mode.extended _).2 (mnemonic_stringCode bs casing white apart)
  simp only [Statement.emit, found, Statement.build, rest_stringCode bs casing white apart,
    content?_quoted, expand_eq_carriers, unescape_escape]

include casing white apart in
theorem count_stringCode : count (.instruction (stringCode name gap bs)) =
    chunkCount (escape bs) := by
  rw [count, if_pos (mnemonic_stringCode bs casing white apart),
    rest_stringCode bs casing white apart, content?_quoted, Option.getD_some, chunkCount]

theorem chomp_ofString (indent name gap tail : Bytes) :
    chomp (ofString indent name gap bs tail) = ofString indent name gap bs (chomp tail) := by
  obtain ⟨front, split⟩ : ∃ front, ∀ t, ofString indent name gap bs t = front ++ t :=
    ⟨indent ++ (name ++ (gap ++ quoted bs)), fun t => by simp [ofString]⟩
  cases tail with
  | nil =>
    have last : (ofString indent name gap bs []).getLast? = some doubleQuote := by
      simp [ofString, getLast?_quoted]
    have other : doubleQuote ≠ carriageReturn := by decide
    simp [chomp, last, other]
  | cons b tail =>
    have same : (front ++ b :: tail).getLast? = (b :: tail).getLast? := by
      simp [List.getLast?_append, List.getLast?_cons]
    rw [split, split, chomp, chomp, same]
    split
    next => rw [List.dropLast_append_of_ne_nil (List.cons_ne_nil b tail)]
    next => rfl

include indented casing white ends in
theorem ofSource_ofString (whole : lineFeed ∉ indent ++ gap ++ tail) {data : Bytes}
    (written : data ∈ sourcesOf [ofString indent name gap bs tail]) :
    ofSource data = [.instruction (stringCode name gap bs)] := by
  have unbroken : ∀ l ∈ [ofString indent name gap bs tail], lineFeed ∉ l := by
    have inName : lineFeed ∉ name := not_mem_of_isToken (by decide) (isToken_of_casing casing)
    simp only [List.mem_append, not_or] at whole
    simp [ofString, whole, inName, lineFeed_not_mem_quoted]
  have ended : [ofString indent name gap bs tail].getLast? ≠ some [] := by
    simp [ofString, quoted]
  rw [ofSource, sourceLines_of_mem_sourcesOf written unbroken ended, List.map_singleton,
    List.map_singleton, chomp_ofString, classify_ofString bs indented casing white ends.chomp]

end

end Line

/-- Every byte string can be written as a literal, and its line pushes just these bytes. -/
theorem every_byte_string_has_literal {indent name gap tail : Bytes} (bs : Bytes)
    (indented : isBlankText indent) (casing : name.map toLower = utf8 "stpush")
    (white : isBlankText gap) (apart : gap ≠ []) (ends : Line.IsTail tail)
    (whole : lineFeed ∉ indent ++ gap ++ tail) :
    (∃ text, Line.classify (Line.ofString indent name gap bs tail) = .instruction text) ∧
    (∀ mode, Assembly.emitLine mode (.classify (Line.ofString indent name gap bs tail)) =
      .ok (carriers bs)) ∧
    (carriers bs).length = (bs.length + 2) / 3 ∧
    (Line.classify (Line.ofString indent name gap bs tail)).count =
      ((escape bs).length + 2) / 3 ∧
    ∀ file mode, ∀ data ∈ sourcesOf [Line.ofString indent name gap bs tail],
      (assemble file mode (.ofBytes data)).result = .ok ⟨carriers bs, [], []⟩ := by
  have line := Line.classify_ofString bs indented casing white ends
  have emitted (mode : Mode) := Line.emit_stringCode bs casing white apart mode
  rw [line]
  refine ⟨⟨_, rfl⟩, emitted, length_carriers bs, Line.count_stringCode bs casing white apart, ?_⟩
  intro file mode data written
  have source := Line.ofSource_ofString bs indented casing white ends whole written
  have yielded : [Line.stringCode name gap bs].map (Statement.emit mode) =
      [carriers bs].map .ok := by
    rw [List.map_singleton, emitted mode, List.map_singleton]
  rw [assemble_instructions file source yielded, List.flatten_singleton]

-- A tab and a no-break space before, an ideographic space between, a comment behind; the string
-- holds both marks of a literal, a line feed, and a byte that is no text.
theorem every_byte_string_has_literal_of_marks :
    isBlankText [0x09, 0xC2, 0xA0] ∧ (utf8 "StPuSH").map toLower = utf8 "stpush" ∧
    isBlankText [0xE3, 0x80, 0x80] ∧ Line.IsTail (utf8 " # \"") ∧
    (assemble [] { strict := true } (.ofBytes ([0x09, 0xC2, 0xA0] ++ utf8 "StPuSH" ++
      [0xE3, 0x80, 0x80] ++ utf8 "\"a\\\"#:\\\\\\n" ++ [0xFF] ++ utf8 "\" # \"\n"))).result =
        .ok ⟨[.push 0xFF, .push 0x010A5C3A, .push 0x01232261], [], []⟩ := by
  have indented : isBlankText [0x09, 0xC2, 0xA0] := by decide +kernel
  have casing : (utf8 "StPuSH").map toLower = utf8 "stpush" := by decide
  have white : isBlankText [0xE3, 0x80, 0x80] := by decide +kernel
  have ends : Line.IsTail (utf8 " # \"") :=
    .comment (w := utf8 " ") (by decide +kernel) (utf8 " \"")
  obtain ⟨-, -, -, -, assembled⟩ := every_byte_string_has_literal
    [0x61, 0x22, 0x23, 0x3A, 0x5C, 0x0A, 0xFF] indented casing white (by decide) ends (by decide)
  exact ⟨indented, casing, white, ends, assembled [] { strict := true } _ (by decide +kernel)⟩

end StackAsm
