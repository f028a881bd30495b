import StackAsm.Assembly.Program
import StackAsm.Proofs.Text.Splitting

set_option autoImplicit false

namespace StackAsm

open Ascii Literal Utf8

theorem lower_ne_nil {bs : Bytes} (nonempty : bs ≠ []) : lower bs ≠ [] := by
  intro none
  obtain ⟨p, ps, split⟩ := List.exists_cons_of_ne_nil (pieces_ne_nil nonempty)
  rw [lower, split, List.flatMap_cons, List.append_eq_nil_iff] at none
  exact String.utf8EncodeChar_ne_nil none.1

namespace Line

theorem classify_eq_instruction_iff (raw text : Bytes) : classify raw = .instruction text ↔
    text = trim (code false raw) ∧ text ≠ [] ∧ text.getLast? ≠ some colon := by
  rw [classify, ofText]
  split
  next blank => simp +contextual [blank]
  next visible =>
    split
    next label => simp +contextual [label]
    next unlabelled =>
      constructor
      · intro same
        cases same
        exact ⟨rfl, visible, unlabelled⟩
      · intro same
        rw [same.1]

theorem exists_classify_eq_instruction_iff (raw : Bytes) :
    (∃ text, classify raw = .instruction text) ↔
      trim (code false raw) ≠ [] ∧ (trim (code false raw)).getLast? ≠ some colon := by
  simp only [classify_eq_instruction_iff, exists_eq_left]

structure Tokenised (text : Bytes) : Prop where
  nonempty : tokens text ≠ []
  solid : ∀ t ∈ tokens text, t ≠ [] ∧ ¬HoldsBlank t
  first : UpToBlank (head text) text
  inside : (head text).length ≤ text.length
  -- The text does not end in white space, so there is none to take off behind the rest.
  behind : Trimmed (rest text) ∧ ∃ w, isBlankText w ∧ text = head text ++ (w ++ rest text)
  others : tokens (rest text) = operands text
  named : mnemonic text ≠ []

theorem tokenised_of_trimmed {text : Bytes} (trimmed : Trimmed text) (nonempty : text ≠ []) :
    Tokenised text := by
  obtain ⟨t, after, visible, solid, ends, rfl⟩ := exists_first_token trimmed nonempty
  have cut := tokens_append_of_endsToken visible solid ends
  have first : head (t ++ after) = t := by rw [head, cut, List.headD_cons]
  have remainder : rest (t ++ after) = trim after := by rw [rest, first, List.drop_left]
  obtain ⟨-, w, v, before, behind, split⟩ := exists_trim after
  have none : v = [] := by
    apply Classical.byContradiction
    intro some
    apply trimmed.2
    rw [split, ← List.append_assoc, ← List.append_assoc]
    exact (endsBlank_of_isBlankText behind some).append _
  rw [none, List.append_nil] at split
  constructor
  case nonempty => simp [cut]
  case solid => exact fun u member => solid_of_mem_tokens member
  case first =>
    rw [first]
    exact upToBlank_append solid ends
  case inside => simp [first]
  case behind =>
    rw [remainder, first]
    exact ⟨trimmed_trim after, w, before, congrArg (t ++ ·) split⟩
  case others =>
    have same : tokens (trim after) = tokens after := by
      rw [← tokens_blank_append before (trim after), ← split]
    rw [remainder, operands, cut, List.tail_cons, same]
  case named =>
    rw [mnemonic, first]
    exact lower_ne_nil visible

theorem tokenised_of_classify {raw text : Bytes} (instruction : classify raw = .instruction text) :
    Tokenised text := by
  obtain ⟨rfl, nonempty, -⟩ := (classify_eq_instruction_iff raw text).1 instruction
  exact tokenised_of_trimmed (trimmed_trim _) nonempty

-- From here on a part is missing where there is no token to read it from, or where the cut behind
-- the first token lies past the end of the text.

def head? (text : Bytes) : Option Bytes :=
  (tokens text).head?

def mnemonic? (text : Bytes) : Option Bytes :=
  (head? text).map lower

def operands? (text : Bytes) : Option (List Bytes) :=
  (tokens text).tail?

def rest? (text : Bytes) : Option Bytes := do
  let first ← head? text
  if first.length ≤ text.length then some (trim (text.drop first.length)) else none

def count? : Line → Option Nat
  | .blank | .label _ => some 0
  | .instruction text => do
    if (← mnemonic? text) = utf8 "stpush" then
      let rest ← rest? text
      return (((content? rest).getD rest).length + 2) / 3
    else return 1

section Tokenised

variable {text : Bytes} (tokenised : Tokenised text)

include tokenised

theorem head?_of_tokenised : head? text = some (head text) := by
  obtain ⟨t, ts, split⟩ := List.exists_cons_of_ne_nil tokenised.nonempty
  rw [head?, head, split, List.head?_cons, List.headD_cons]

theorem mnemonic?_of_tokenised : mnemonic? text = some (mnemonic text) := by
  rw [mnemonic?, head?_of_tokenised tokenised, Option.map_some, mnemonic]

theorem operands?_of_tokenised : operands? text = some (operands text) := by
  obtain ⟨t, ts, split⟩ := List.exists_cons_of_ne_nil tokenised.nonempty
  rw [operands?, operands, split, List.tail?_cons, List.tail_cons]

theorem rest?_of_tokenised : rest? text = some (rest text) := by
  simp only [rest?, head?_of_tokenised tokenised, Option.bind_eq_bind, Option.bind_some,
    tokenised.inside, ↓reduceIte, rest]

end Tokenised

def Readable (l : Line) : Prop :=
  ∀ text, l = .instruction text → Tokenised text

theorem readable_classify (raw : Bytes) : (classify raw).Readable := by
  intro text instruction
  exact tokenised_of_classify instruction

theorem count?_of_readable {l : Line} (readable : l.Readable) : l.count? = some l.count := by
  cases l with
  | blank => rfl
  | label name => rfl
  | instruction text =>
    have tokenised := readable text rfl
    simp only [count?, count, mnemonic?_of_tokenised tokenised, rest?_of_tokenised tokenised,
      Option.bind_eq_bind, Option.bind_some]
    split <;> rfl

end Line

namespace Statement

open Line

def refusal? (text : Bytes) : Option LineProblem := do
  let name ← mnemonic? text
  if Mnemonic.isBranch name then return .unresolvedBranch name
  else return .unknownMnemonic (← head? text)

def emit? (mode : Mode) (text : Bytes) : Option (Except LineProblem (List Instruction)) := do
  match Mnemonic.find? mode.extended (← mnemonic? text) with
  | some m => return build m (← rest? text) (← operands? text)
  | none =>
    if mode.strict then return .error (← refusal? text)
    else return .ok [.unknown 0]

theorem refusal?_of_tokenised {text : Bytes} (tokenised : Tokenised text) :
    refusal? text = some (refusal text) := by
  simp only [refusal?, refusal, mnemonic?_of_tokenised tokenised, head?_of_tokenised tokenised,
    Option.bind_eq_bind, Option.bind_some]
  split <;> rfl

theorem emit?_of_tokenised (mode : Mode) {text : Bytes} (tokenised : Tokenised text) :
    emit? mode text = some (emit mode text) := by
  simp only [emit?, emit, recognised?, mnemonic?_of_tokenised tokenised,
    rest?_of_tokenised tokenised, operands?_of_tokenised tokenised,
    refusal?_of_tokenised tokenised, Option.bind_eq_bind, Option.bind_some]
  cases Mnemonic.find? mode.extended (mnemonic text) with
  | some m => rfl
  | none => cases mode.strict <;> rfl

end Statement

namespace Label

def declarationsFrom? (above offset : Nat) : List Line → Option (List Label)
  | [] => some []
  | l :: ls => do
    let below ← declarationsFrom? (above + 1) (offset + 4 * (← l.count?)) ls
    match l with
    | .label name => return ⟨name, above + 1, offset⟩ :: below
    | _ => return below

theorem declarationsFrom?_of_readable {ls : List Line} (readable : ∀ l ∈ ls, l.Readable)
    (above offset : Nat) :
    declarationsFrom? above offset ls = some (declarationsFrom above offset ls) := by
  induction ls generalizing above offset with
  | nil => rfl
  | cons l ls ih =>
    rw [List.forall_mem_cons] at readable
    simp only [declarationsFrom?, declarationsFrom, Line.count?_of_readable readable.1,
      ih readable.2, Option.bind_eq_bind, Option.bind_some]
    cases l <;> rfl

end Label

namespace Assembly

def emitLine? (mode : Mode) : Line → Option (Except LineProblem (List Instruction))
  | .instruction text => Statement.emit? mode text
  | _ => some (.ok [])

def emitFrom? (file : Bytes) (mode : Mode) (above : Nat) :
    List Line → Option (Except Failure (List (List Instruction)))
  | [] => some (.ok [])
  | l :: ls => do
    match ← emitLine? mode l with
    | .error problem => return .error (lineFailure file (above + 1) problem)
    | .ok is => return (← emitFrom? file mode (above + 1) ls).map (is :: ·)

def zeroWordsFrom? (file : Bytes) (mode : Mode) (above : Nat) : List Line → Option (List Record)
  | [] => some []
  | l :: ls => do
    match l, ← emitLine? mode l with
    | _, .error _ => return []
    | .instruction text, .ok _ =>
      let name ← Line.mnemonic? text
      let unknown := (Mnemonic.find? mode.extended name).isNone
      return (if unknown && !mode.strict then [.zeroWord file (above + 1) name] else []) ++
        (← zeroWordsFrom? file mode (above + 1) ls)
    | _, .ok _ => zeroWordsFrom? file mode (above + 1) ls

def ofLines? (file : Bytes) (mode : Mode) (ls : List Line) : Option Assembly := do
  let declared ← Label.declarationsFrom? 0 0 (wellLabelled ls)
  let warnings := Label.warnings file declared
  let labels := Label.table declared
  let duplicates := warnings.map Record.duplicateLabel
  if (wellLabelled ls).length < ls.length then
    return { log := duplicates
             result := .error (lineFailure file ((wellLabelled ls).length + 1) .emptyLabelName) }
  else
    let counts ← ls.mapM Line.count?
    let zeroWords ← zeroWordsFrom? file mode 0 ls
    let yields ← emitFrom? file mode 0 ls
    return { log := duplicates ++ .labelsResolved file labels.length (4 * total counts) :: zeroWords
             result := yields.map fun iss => ⟨iss.flatten, labels, warnings⟩ }

theorem emitLine?_of_readable (mode : Mode) {l : Line} (readable : l.Readable) :
    emitLine? mode l = some (emitLine mode l) := by
  cases l with
  | blank => rfl
  | label name => rfl
  | instruction text => exact Statement.emit?_of_tokenised mode (readable text rfl)

theorem emitFrom?_of_readable (file : Bytes) (mode : Mode) {ls : List Line}
    (readable : ∀ l ∈ ls, l.Readable) (above : Nat) :
    emitFrom? file mode above ls = some (emitFrom file mode above ls) := by
  induction ls generalizing above with
  | nil => rfl
  | cons l ls ih =>
    rw [List.forall_mem_cons] at readable
    simp only [emitFrom?, emitFrom, emitLine?_of_readable mode readable.1, ih readable.2,
      Option.bind_eq_bind, Option.bind_some]
    cases emitLine mode l <;> rfl

theorem zeroWordsFrom?_of_readable (file : Bytes) (mode : Mode) {ls : List Line}
    (readable : ∀ l ∈ ls, l.Readable) (above : Nat) :
    zeroWordsFrom? file mode above ls = some (zeroWordsFrom file mode above ls) := by
  induction ls generalizing above with
  | nil => rfl
  | cons l ls ih =>
    rw [List.forall_mem_cons] at readable
    have here := emitLine?_of_readable mode readable.1
    have later := ih readable.2 (above + 1)
    cases yielded : emitLine mode l with
    | error problem => simp [zeroWordsFrom?, zeroWordsFrom, here, yielded]
    | ok is =>
      cases l with
      | blank => simp [zeroWordsFrom?, zeroWordsFrom, here, yielded, later]
      | label name => simp [zeroWordsFrom?, zeroWordsFrom, here, yielded, later]
      | instruction text =>
        have named := Line.mnemonic?_of_tokenised (readable.1 text rfl)
        simp [zeroWordsFrom?, zeroWordsFrom, here, yielded, later, named, zeroed,
          Statement.recognised?]

theorem mapM_count?_of_readable {ls : List Line} (readable : ∀ l ∈ ls, l.Readable) :
    ls.mapM Line.count? = some (ls.map Line.count) := by
  induction ls with
  | nil => rfl
  | cons l ls ih =>
    rw [List.forall_mem_cons] at readable
    simp [List.mapM_cons, Line.count?_of_readable readable.1, ih readable.2]

theorem ofLines?_of_readable (file : Bytes) (mode : Mode) {ls : List Line}
    (readable : ∀ l ∈ ls, l.Readable) :
    ofLines? file mode ls = some (ofLines file mode ls) := by
  have front : ∀ l ∈ wellLabelled ls, l.Readable := by
    intro l member
    exact readable l ((List.takeWhile_sublist _).subset member)
  simp only [ofLines?, ofLines, Label.declarationsFrom?_of_readable front,
    mapM_count?_of_readable readable, zeroWordsFrom?_of_readable file mode readable,
    emitFrom?_of_readable file mode readable, Option.bind_eq_bind, Option.bind_some,
    Label.declarations, sizeOfLines]
  split <;> rfl

end Assembly

/-- Assembly that stops, without any outcome, where a part of a line is missing. -/
def assemble? (file : Bytes) (mode : Mode) (input : Input) : Option Assembly :=
  let raw := sourceLines input.data
  match input.failure with
  | some cause =>
    some { log := [], result := .error ⟨[.lineReadFailed (raw.length + 1)], cause⟩ }
  | none => Assembly.ofLines? file mode (raw.map Line.classify)

theorem assemble?_eq_some (file : Bytes) (mode : Mode) (input : Input) :
    assemble? file mode input = some (assemble file mode input) := by
  have readable : ∀ l ∈ (sourceLines input.data).map Line.classify, l.Readable := by
    intro l member
    obtain ⟨raw, -, rfl⟩ := List.mem_map.1 member
    exact Line.readable_classify raw
  cases input with
  | mk data failure =>
    cases failure with
    | some cause => rfl
    | none => exact Assembly.ofLines?_of_readable file mode readable

/-- Which lines are instructions, what their parts are, and that no part is ever missing: neither
where a line is counted nor where a source is assembled. -/
theorem line_tokens_safe_to_access (raw : Bytes) :
    ((∃ text, Line.classify raw = .instruction text) ↔
      trim (Line.code false raw) ≠ [] ∧ (trim (Line.code false raw)).getLast? ≠ some colon) ∧
    (∀ text, Line.classify raw = .instruction text →
      TrimOf text (Line.code false raw) ∧ Line.Tokenised text) ∧
    (Line.classify raw).count? = some (Line.classify raw).count ∧
    ∀ file mode input, assemble? file mode input = some (assemble file mode input) := by
  refine ⟨Line.exists_classify_eq_instruction_iff raw, ?_,
    Line.count?_of_readable (Line.readable_classify raw), assemble?_eq_some⟩
  intro text instruction
  have trimmed := ((Line.classify_eq_instruction_iff raw text).1 instruction).1
  exact ⟨(trimOf_iff text _).2 trimmed, Line.tokenised_of_classify instruction⟩

-- Two bytes that could have started another space stand before an ideographic space, and the `0x85`
-- at the end is white space only behind a `0xC2`.
def Line.strayText : Bytes :=
  utf8 "Push" ++ [0xE2, 0x80] ++ [0xE3, 0x80, 0x80] ++ utf8 "1 2" ++ [0x85]

theorem line_tokens_safe_to_access_of_stray_bytes :
    Line.classify ([0xC2, 0xA0] ++ Line.strayText ++ [0xC2, 0x85] ++ utf8 "# note:") =
      .instruction Line.strayText ∧
    TrimOf Line.strayText ([0xC2, 0xA0] ++ Line.strayText ++ [0xC2, 0x85]) ∧
    Line.Tokenised Line.strayText ∧
    tokens Line.strayText = [utf8 "Push" ++ [0xE2, 0x80], utf8 "1", utf8 "2" ++ [0x85]] := by
  have instruction : Line.classify ([0xC2, 0xA0] ++ Line.strayText ++ [0xC2, 0x85] ++
      utf8 "# note:") = .instruction Line.strayText := by decide +kernel
  have parts := (line_tokens_safe_to_access _).2.1 _ instruction
  exact ⟨instruction, parts.1, parts.2, by decide +kernel⟩

end StackAsm
