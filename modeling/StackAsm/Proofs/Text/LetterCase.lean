import StackAsm.Proofs.Text.Token

set_option autoImplicit false

namespace StackAsm

open Ascii Utf8

-- `i` is the lower case of a dotted capital as well, and `k` that of the sign for kelvins.
def isUnshared (b : UInt8) : Bool :=
  b < 0x80 && b != 0x00 && b != 0x69 && b != 0x6B

theorem isUnshared_iff {b : UInt8} :
    isUnshared b ↔ b.toNat < 0x80 ∧ b.toNat ≠ 0x00 ∧ b.toNat ≠ 0x69 ∧ b.toNat ≠ 0x6B := by
  simp only [isUnshared, Bool.and_eq_true, decide_eq_true_eq, bne_iff_ne, ne_eq, ← UInt8.toNat_inj,
    UInt8.lt_iff_toNat_lt, UInt8.reduceToNat, and_assoc]

theorem toNat_ofNat_eq_or (n : Nat) : (Char.ofNat n).toNat = n ∨ (Char.ofNat n).toNat = 0 := by
  by_cases valid : n.isValidChar
  next =>
    have value : Char.ofNat n = Char.ofNatAux n valid := dif_pos valid
    exact .inl (congrArg Char.toNat value)
  next =>
    have value : Char.ofNat n = Char.ofNat 0 := dif_neg valid
    exact .inr (congrArg Char.toNat value)

theorem toNat_ofNat_ascii : ∀ b : UInt8, b < 0x80 → (Char.ofNat b.toNat).toNat = b.toNat :=
  forall_byte (by decide +kernel)

theorem lowerCaseRanges_beyond_ascii : ∀ r ∈ lowerCaseRanges,
    0x80 ≤ (r.1 : Int) + r.2.2.2 ∨
      r.1 = r.2.1 ∧ ((r.1 : Int) + r.2.2.2 = 0x69 ∨ (r.1 : Int) + r.2.2.2 = 0x6B) := by
  decide +kernel

theorem lowerChar_beyond_ascii {c : Char} (beyond : 0x80 ≤ c.toNat) :
    0x80 ≤ (lowerChar c).toNat ∨ (lowerChar c).toNat ∈ [0x00, 0x69, 0x6B] := by
  rw [lowerChar, if_neg (by omega)]
  split
  next lo hi step distance found =>
    have range := lowerCaseRanges_beyond_ascii _ (List.mem_of_find?_eq_some found)
    have inside := List.find?_some found
    simp only [Bool.and_eq_true, decide_eq_true_eq] at range inside
    -- A character that does not exist is taken for the null character.
    rcases toNat_ofNat_eq_or (c.toNat + distance).toNat with same | null
    · rw [same]
      simp only [List.mem_cons, List.not_mem_nil, or_false]
      omega
    · simp [null]
  next => exact .inl beyond

theorem eq_of_ascii_utf8EncodeChar {c : Char} {b : UInt8} {tail : Bytes}
    (encoded : String.utf8EncodeChar c = b :: tail) (ascii : b < 0x80) :
    c = Char.ofNat b.toNat ∧ tail = [] := by
  have whole : pieces (b :: tail) = [.char c] := by
    simpa [encoded] using pieces_char_append c []
  simp only [pieces_cons ascii, Piece.ofByte, List.cons.injEq, Piece.char.injEq] at whole
  have rest := ofPieces_pieces tail
  rw [whole.2] at rest
  exact ⟨whole.1.symm, rest.symm⟩

-- A character whose lower case starts with an unshared byte is an ASCII letter.
theorem lowerChar_unshared {c : Char} {b : UInt8} {tail : Bytes}
    (encoded : String.utf8EncodeChar (lowerChar c) = b :: tail) (unshared : isUnshared b) :
    ∃ a, String.utf8EncodeChar c = [a] ∧ toLower a = b ∧ tail = [] := by
  have bounds := isUnshared_iff.1 unshared
  obtain ⟨same, rfl⟩ := eq_of_ascii_utf8EncodeChar encoded (UInt8.lt_iff_toNat_lt.2 bounds.1)
  have value : (lowerChar c).toNat = b.toNat := by
    rw [same, toNat_ofNat_ascii b (UInt8.lt_iff_toNat_lt.2 bounds.1)]
  have ascii : c.toNat < 0x80 := by
    apply Nat.lt_of_not_le
    intro beyond
    have escapes := lowerChar_beyond_ascii beyond
    simp only [value, List.mem_cons, List.not_mem_nil, or_false] at escapes
    omega
  have shown : (Piece.ofByte (UInt8.ofNat c.toNat)).shown = c := by
    rw [Piece.ofByte, Piece.shown, UInt8.toNat_ofNat', Nat.mod_eq_of_lt (by omega),
      Char.ofNat_toNat]
  have lowered := utf8EncodeChar_lowerChar (UInt8.ofNat c.toNat) (by
    simp only [UInt8.lt_iff_toNat_lt, UInt8.toNat_ofNat', UInt8.reduceToNat]
    omega)
  rw [shown, encoded, List.cons.injEq] at lowered
  have single := utf8EncodeChar_ofNat ⟨c.toNat, ascii⟩
  rw [Char.ofNat_toNat] at single
  exact ⟨_, single, lowered.1.symm, rfl⟩

theorem map_toLower_of_lower_unshared {bs : Bytes} (unshared : ∀ b ∈ lower bs, isUnshared b) :
    bs.map toLower = lower bs := by
  induction bs using induction_pieces with
  | nil => rfl
  | char c rest ih =>
    have split : lower (String.utf8EncodeChar c ++ rest) =
        String.utf8EncodeChar (lowerChar c) ++ lower rest := by
      simp [lower, pieces_char_append, Piece.shown]
    rw [split] at unshared ⊢
    obtain ⟨b, tail, encoded⟩ :=
      List.exists_cons_of_ne_nil (String.utf8EncodeChar_ne_nil (c := lowerChar c))
    obtain ⟨a, letter, lowered, rfl⟩ := lowerChar_unshared encoded (unshared b (by simp [encoded]))
    have later := ih fun x member => unshared x (List.mem_append_right _ member)
    rw [letter, encoded, List.map_append, later, List.map_singleton, lowered]
  | stray b rest none _ =>
    -- The replacement character would stay, and its bytes are not ASCII.
    have replaced : 0xEF ∈ lower (b :: rest) := by
      have front : 0xEF ∈ String.utf8EncodeChar (lowerChar replacement) := by decide +kernel
      simp [lower, pieces_stray_cons none, Piece.shown, front]
    have absurd : isUnshared 0xEF = true := unshared _ replaced
    cases absurd

theorem lower_eq_iff {word : Bytes} (unshared : ∀ b ∈ word, isUnshared b) (bs : Bytes) :
    lower bs = word ↔ bs.map toLower = word := by
  constructor
  · rintro rfl
    exact map_toLower_of_lower_unshared unshared
  · rintro rfl
    -- Bytes beyond ASCII are their own lower case, so the word could not do without them.
    have ascii : ∀ b ∈ bs, b < 0x80 := by
      intro b member
      have small := (isUnshared_iff.1 (unshared _ (List.mem_map_of_mem member))).1
      revert small
      exact forall_byte (motive := fun b => (toLower b).toNat < 0x80 → b < 0x80)
        (by decide +kernel) b
    rw [lower_of_ascii ascii]

end StackAsm
