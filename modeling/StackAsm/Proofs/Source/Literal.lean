import StackAsm.Proofs.Source.Lines
import StackAsm.Proofs.Text.Blank

set_option autoImplicit false

namespace StackAsm

open Ascii

namespace Literal

def escapeByte (b : UInt8) : Bytes :=
  if b = backslash then [backslash, backslash]
  else if b = doubleQuote then [backslash, doubleQuote]
  else if b = lineFeed then [backslash, letterN]
  else [b]

def escape (bs : Bytes) : Bytes :=
  bs.flatMap escapeByte

def quoted (bs : Bytes) : Bytes :=
  doubleQuote :: (escape bs ++ [doubleQuote])

theorem escape_cons (b : UInt8) (bs : Bytes) : escape (b :: bs) = escapeByte b ++ escape bs := by
  rw [escape, List.flatMap_cons, escape]

theorem unescape_cons {b : UInt8} (plain : b ≠ backslash) (bs : Bytes) :
    unescape (b :: bs) = b :: unescape bs := by
  cases bs with
  | nil => rfl
  | cons c bs => rw [unescape, if_neg plain]

theorem unescape_escapeByte_append (b : UInt8) (rest : Bytes) :
    unescape (escapeByte b ++ rest) = b :: unescape rest := by
  by_cases isBackslash : b = backslash
  next => simp [escapeByte, isBackslash, unescape]
  next =>
    by_cases isQuote : b = doubleQuote
    next => simp [escapeByte, isQuote, unescape, backslash, doubleQuote, letterN]
    next =>
      by_cases isLineFeed : b = lineFeed
      next => simp [escapeByte, isLineFeed, unescape, backslash, doubleQuote, lineFeed, letterN]
      next =>
        simp only [escapeByte, isBackslash, isQuote, isLineFeed, ↓reduceIte, List.singleton_append]
        exact unescape_cons isBackslash rest

theorem unescape_escape (bs : Bytes) : unescape (escape bs) = bs := by
  induction bs with
  | nil => rfl
  | cons b bs ih => rw [escape_cons, unescape_escapeByte_append, ih]

theorem lineFeed_not_mem_escapeByte : ∀ b, lineFeed ∉ escapeByte b :=
  forall_byte (by decide +kernel)

theorem lineFeed_not_mem_quoted (bs : Bytes) : lineFeed ∉ quoted bs := by
  have inside : lineFeed ∉ escape bs := by
    intro member
    obtain ⟨b, -, here⟩ := List.mem_flatMap.1 member
    exact lineFeed_not_mem_escapeByte b here
  have different : lineFeed ≠ doubleQuote := by decide
  simp [quoted, inside, different]

theorem head?_quoted (bs : Bytes) : (quoted bs).head? = some doubleQuote :=
  rfl

theorem getLast?_quoted (bs : Bytes) : (quoted bs).getLast? = some doubleQuote := by
  rw [quoted, ← List.cons_append, List.getLast?_concat]

theorem content?_quoted (bs : Bytes) : content? (quoted bs) = some (escape bs) := by
  have long : 2 ≤ (quoted bs).length := by simp [quoted]
  rw [content?, if_pos ⟨long, head?_quoted bs, getLast?_quoted bs⟩, quoted, List.tail_cons,
    List.dropLast_concat]

end Literal

namespace Line

open Literal

theorem code_doubleQuote (inside : Bool) (bs : Bytes) :
    code inside (doubleQuote :: bs) = doubleQuote :: code (!inside) bs := by
  cases bs with
  | nil => simp [code, doubleQuote, numberSign]
  | cons c bs => simp [code, doubleQuote, backslash]

theorem code_numberSign (bs : Bytes) : code false (numberSign :: bs) = [] := by
  cases bs with
  | nil => rfl
  | cons c bs => simp [code, numberSign, doubleQuote, backslash]

theorem code_escapeByte_append (b : UInt8) (rest : Bytes) :
    code true (escapeByte b ++ rest) = escapeByte b ++ code true rest := by
  by_cases special : b = backslash ∨ b = doubleQuote ∨ b = lineFeed
  next =>
    -- An escape has two bytes, and the second is passed over unread.
    rcases special with rfl | rfl | rfl <;>
      simp [escapeByte, code, backslash, doubleQuote, lineFeed]
  next =>
    simp only [not_or] at special
    simp only [escapeByte, special, ↓reduceIte, List.singleton_append]
    cases rest <;> simp [code, special]

theorem code_quoted_append (bs rest : Bytes) :
    code false (quoted bs ++ rest) = quoted bs ++ code false rest := by
  have body : code true (escape bs ++ doubleQuote :: rest) =
      escape bs ++ doubleQuote :: code false rest := by
    induction bs with
    | nil => exact code_doubleQuote true rest
    | cons b bs ih =>
      rw [escape_cons, List.append_assoc, code_escapeByte_append, ih, List.append_assoc]
  simp only [quoted, List.cons_append, List.append_assoc, List.nil_append] at body ⊢
  rw [code_doubleQuote, Bool.not_false, body]

/-- What may stand behind the code of a line: white space, and then a comment or nothing. -/
inductive IsTail : Bytes → Prop where
  | blank {w : Bytes} (white : isBlankText w) : IsTail w
  | comment {w : Bytes} (white : isBlankText w) (note : Bytes) : IsTail (w ++ numberSign :: note)

theorem code_of_isBlankText {w : Bytes} (white : isBlankText w) (rest : Bytes) :
    code false (w ++ rest) = w ++ code false rest :=
  code_append (not_mem_of_isBlankText white (by decide))
    (not_mem_of_isBlankText white (by decide)) rest

theorem IsTail.isBlankText_code {tail : Bytes} (ends : IsTail tail) :
    isBlankText (code false tail) := by
  cases ends with
  | blank white =>
    have whole := code_of_isBlankText white []
    rw [List.append_nil, code, List.append_nil] at whole
    rwa [whole]
  | comment white note =>
    rw [code_of_isBlankText white, code_numberSign, List.append_nil]
    exact white

theorem IsTail.chomp {tail : Bytes} (ends : IsTail tail) : IsTail (chomp tail) := by
  rw [StackAsm.chomp]
  by_cases last : tail.getLast? = some carriageReturn
  next =>
    rw [if_pos last]
    cases ends with
    | blank white =>
      obtain ⟨before, rfl⟩ := List.getLast?_eq_some_iff.1 last
      rw [List.dropLast_concat]
      exact .blank (isBlankText_of_append_byte (by decide) white)
    | @comment w white note =>
      rw [List.dropLast_append_of_ne_nil (List.cons_ne_nil numberSign note)]
      cases note with
      | nil => simp [numberSign, carriageReturn] at last
      | cons b note => exact .comment white (b :: note).dropLast
  next =>
    rw [if_neg last]
    exact ends

end Line

end StackAsm
