import StackAsm.Proofs.Text.Token

set_option autoImplicit false

namespace StackAsm

open Ascii Utf8

namespace Utf8

theorem exists_firstByte (c : Char) :
    ∃ b tail, String.utf8EncodeChar c = b :: tail ∧ b.IsUTF8FirstByte := by
  obtain ⟨b, tail, encoded⟩ := List.exists_cons_of_ne_nil (String.utf8EncodeChar_ne_nil (c := c))
  have starts := UInt8.isUTF8FirstByte_getElem_zero_utf8EncodeChar (c := c)
  exact ⟨b, tail, encoded, by simpa only [encoded, List.getElem_cons_zero] using starts⟩

theorem eq_nil_of_firstByte {d : Char} {xs more : Bytes} {b : UInt8}
    (inside : String.utf8EncodeChar d = xs ++ b :: more) (start : b.IsUTF8FirstByte) : xs = [] := by
  have position : (String.utf8EncodeChar d)[xs.length]? = some b := by
    rw [inside, List.getElem?_append_right (Nat.le_refl _), Nat.sub_self]
    rfl
  obtain ⟨bound, here⟩ := List.getElem?_eq_some_iff.1 position
  rw [← here, UInt8.isUTF8FirstByte_getElem_utf8EncodeChar] at start
  exact List.length_eq_zero_iff.1 start

theorem firstChar?_append_char {xs : Bytes} (nonempty : xs ≠ []) (c : Char) (ys : Bytes) :
    firstChar? (xs ++ (String.utf8EncodeChar c ++ ys)) = firstChar? xs := by
  have whole {d : Char} {rest : Bytes} (split : xs = String.utf8EncodeChar d ++ rest) :
      firstChar? xs = some d := by
    rw [split]
    exact firstChar?_append d rest
  cases longer : firstChar? (xs ++ (String.utf8EncodeChar c ++ ys)) with
  | none =>
    cases found : firstChar? xs with
    | none => rfl
    | some d =>
      obtain ⟨rest, rfl⟩ := exists_append_of_firstChar? found
      rw [List.append_assoc, firstChar?_append] at longer
      cases longer
  | some d =>
    obtain ⟨rest, split⟩ := exists_append_of_firstChar? longer
    rcases List.append_eq_append_iff.1 split with ⟨more, inside, next⟩ | ⟨more, inside, -⟩
    · cases more with
      | nil =>
        have alone : xs = String.utf8EncodeChar d ++ [] := by simpa using inside.symm
        exact (whole alone).symm
      | cons b more =>
        -- The sequence of `d` would go on with the first byte of `c`, but only its start is one.
        obtain ⟨first, tail, encoded, start⟩ := exists_firstByte c
        obtain rfl : first = b := by
          rw [encoded, List.cons_append, List.cons_append, List.cons.injEq] at next
          exact next.1
        exact absurd (eq_nil_of_firstByte inside start) nonempty
    · exact (whole inside).symm

theorem pieces_append_char (xs : Bytes) (c : Char) (ys : Bytes) :
    pieces (xs ++ (String.utf8EncodeChar c ++ ys)) = pieces xs ++ .char c :: pieces ys := by
  induction xs using induction_pieces with
  | nil => exact pieces_char_append c ys
  | char d rest ih =>
    rw [List.append_assoc, pieces_char_append, pieces_char_append, ih]
    rfl
  | stray b rest none ih =>
    have still : firstChar? (b :: (rest ++ (String.utf8EncodeChar c ++ ys))) = Option.none :=
      (firstChar?_append_char (List.cons_ne_nil b rest) c ys).trans none
    rw [List.cons_append, pieces_stray_cons still, pieces_stray_cons none, ih]
    rfl

theorem pieces_append_of_head (xs : Bytes) {ys : Bytes}
    (starts : ∀ b, (pieces ys).head? ≠ some (.stray b)) :
    pieces (xs ++ ys) = pieces xs ++ pieces ys := by
  induction ys using induction_pieces with
  | nil => simp
  | char c rest _ => rw [pieces_append_char, pieces_char_append]
  | stray b rest none _ =>
    rw [pieces_stray_cons none] at starts
    exact absurd rfl (starts b)

theorem pieces_ofPieces_append {ps : List Piece} (formed : ∀ p ∈ ps, ∃ c, p = .char c)
    (ys : Bytes) : pieces (ofPieces ps ++ ys) = ps ++ pieces ys := by
  induction ps with
  | nil => rfl
  | cons p ps ih =>
    rw [List.forall_mem_cons] at formed
    obtain ⟨⟨c, rfl⟩, later⟩ := formed
    rw [ofPieces_cons, List.append_assoc, Piece.bytes, pieces_char_append, ih later]
    rfl

theorem pieces_append_byte (xs : Bytes) {b : UInt8} (ascii : b < 0x80) (ys : Bytes) :
    pieces (xs ++ b :: ys) = pieces xs ++ .ofByte b :: pieces ys := by
  have starts : ∀ other, (pieces (b :: ys)).head? ≠ some (.stray other) := by
    rw [pieces_cons ascii]
    simp [Piece.ofByte]
  rw [pieces_append_of_head xs starts, pieces_cons ascii]

end Utf8

def isBlankText (bs : Bytes) : Bool :=
  (pieces bs).all Piece.isBlank

theorem isBlank_of_mem_pieces {v : Bytes} (blank : isBlankText v) :
    ∀ p ∈ pieces v, p.isBlank := by
  simpa only [isBlankText, List.all_eq_true] using blank

theorem exists_char_of_isBlank {p : Piece} (blank : p.isBlank) : ∃ c, p = .char c := by
  cases p with
  | char c => exact ⟨c, rfl⟩
  | stray b => cases blank

theorem pieces_blank_append {v : Bytes} (blank : isBlankText v) (ys : Bytes) :
    pieces (v ++ ys) = pieces v ++ pieces ys := by
  have formed : ∀ p ∈ pieces v, ∃ c, p = .char c := fun p member =>
    exists_char_of_isBlank (isBlank_of_mem_pieces blank p member)
  have front := pieces_ofPieces_append formed ys
  rwa [ofPieces_pieces] at front

theorem pieces_append_blank (xs : Bytes) {v : Bytes} (blank : isBlankText v) :
    pieces (xs ++ v) = pieces xs ++ pieces v := by
  apply pieces_append_of_head
  intro b first
  have isBlank := isBlank_of_mem_pieces blank _ (List.mem_of_head? first)
  cases isBlank

def isVisible (b : UInt8) : Bool :=
  b < 0x80 && !(Piece.ofByte b).isBlank

theorem ascii_of_isVisible {b : UInt8} (visible : isVisible b) : b < 0x80 := by
  simp only [isVisible, Bool.and_eq_true, decide_eq_true_eq] at visible
  exact visible.1

theorem isBlank_of_isVisible {b : UInt8} (visible : isVisible b) :
    (Piece.ofByte b).isBlank = false := by
  simp only [isVisible, Bool.and_eq_true, Bool.not_eq_true'] at visible
  exact visible.2

theorem isVisible_of_isPlain : ∀ b, isPlain b → isVisible b :=
  forall_byte (by decide +kernel)

theorem not_mem_of_isBlankText {v : Bytes} (blank : isBlankText v) {b : UInt8}
    (visible : isVisible b) : b ∉ v := by
  intro member
  obtain ⟨front, rear, rfl⟩ := List.append_of_mem member
  have piece := isBlank_of_mem_pieces blank (.ofByte b) (by
    rw [pieces_append_byte front (ascii_of_isVisible visible) rear]
    simp)
  rw [isBlank_of_isVisible visible] at piece
  cases piece

theorem isBlankText_of_append_byte {v : Bytes} {b : UInt8} (ascii : b < 0x80)
    (blank : isBlankText (v ++ [b])) : isBlankText v := by
  simp only [isBlankText, pieces_append_byte v ascii, List.all_append, Bool.and_eq_true] at blank
  exact blank.1

theorem strip_append {α : Type} {p : α → Bool} {front rear : List α} (before : ∀ x ∈ front, p x)
    (behind : ∀ x ∈ rear, p x) (xs : List α) : strip p (front ++ (xs ++ rear)) = strip p xs := by
  have kept : (xs ++ rear).dropWhile p = if (xs.dropWhile p).isEmpty then [] else
      xs.dropWhile p ++ rear := by
    have gone : (rear ++ []).dropWhile p = [] := List.dropWhile_append_of_pos behind
    rw [List.append_nil] at gone
    rw [List.dropWhile_append, gone]
  rw [strip, strip, List.dropWhile_append_of_pos before, kept]
  by_cases none : (xs.dropWhile p).isEmpty
  next =>
    rw [if_pos none, List.isEmpty_iff.1 none]
  next =>
    have reversed : ∀ x ∈ rear.reverse, p x := by simpa using behind
    rw [if_neg none, List.reverse_append, List.dropWhile_append_of_pos reversed]

theorem trim_append {w v : Bytes} (before : isBlankText w) (behind : isBlankText v) (t : Bytes) :
    trim (w ++ (t ++ v)) = trim t := by
  rw [trim, trim, pieces_blank_append before, pieces_append_blank t behind,
    strip_append (isBlank_of_mem_pieces before) (isBlank_of_mem_pieces behind)]

theorem trim_of_isVisible {t : Bytes} {first last : UInt8} (head : t.head? = some first)
    (rear : t.getLast? = some last) (firstVisible : isVisible first)
    (lastVisible : isVisible last) : trim t = t := by
  obtain ⟨more, rfl⟩ : ∃ more, t = first :: more := by
    cases t with
    | nil => cases head
    | cons b more => exact ⟨more, by simpa using head⟩
  rw [trim, strip_of_ends, ofPieces_pieces]
  · intro p start
    rw [pieces_cons (ascii_of_isVisible firstVisible), List.head?_cons, Option.some.injEq] at start
    rw [← start]
    exact isBlank_of_isVisible firstVisible
  · intro p ending
    obtain ⟨before, whole⟩ := List.getLast?_eq_some_iff.1 rear
    rw [whole, pieces_append_byte before (ascii_of_isVisible lastVisible), pieces_nil,
      List.getLast?_concat, Option.some.injEq] at ending
    rw [← ending]
    exact isBlank_of_isVisible lastVisible

theorem tokens_blank_append {v : Bytes} (blank : isBlankText v) (ys : Bytes) :
    tokens (v ++ ys) = tokens ys := by
  have skipped (ps : List Piece) (white : ∀ p ∈ ps, p.isBlank) :
      ((ps ++ pieces ys).splitOnP Piece.isBlank).filter (· ≠ []) =
        ((pieces ys).splitOnP Piece.isBlank).filter (· ≠ []) := by
    induction ps with
    | nil => rfl
    | cons p ps ih =>
      rw [List.forall_mem_cons] at white
      rw [List.cons_append, List.splitOnP_cons_eq_if_modifyHead, if_pos white.1,
        List.filter_cons_of_neg (by simp), ih white.2]
  rw [tokens, tokens, pieces_blank_append blank, skipped _ (isBlank_of_mem_pieces blank)]

end StackAsm
