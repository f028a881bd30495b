import StackAsm.Proofs.Instruction.Truncation

set_option autoImplicit false

namespace StackAsm.Instruction

/-- The bits of a word that its instruction does not depend on: `[27:16]` and `[3:2]` of `stprint`,
and `[27:14]` of `print`. -/
def reservedBits (word : UInt32) : UInt32 :=
  match word.toNat / 0x10000000 with
  | 0x4 => 0x0FFF000C
  | 0xD => 0x0FFFC000
  | _ => 0

-- Masking `length` bits from `low` on reads that field and puts it back in place.
theorem and_field (n length low : Nat) :
    n &&& ((1 <<< length - 1) <<< low) = (n >>> low % 1 <<< length) <<< low := by
  rw [Nat.one_shiftLeft, ← Nat.and_two_pow_sub_one_eq_mod, Nat.shiftLeft_and_distrib]
  apply Nat.eq_of_testBit_eq
  intro i
  by_cases above : low ≤ i <;>
    simp [Nat.testBit_and, Nat.testBit_shiftLeft, Nat.testBit_shiftRight, above]

theorem toNat_and_not_stprint (w : UInt32) :
    (w &&& ~~~0x0FFF000C).toNat =
      w.toNat / 0x10000000 * 0x10000000 + w.toNat / 0x10 % 0x1000 * 0x10 + w.toNat % 4 := by
  have bound := w.toNat_lt
  have mask : (~~~0x0FFF000C : UInt32).toNat =
      (1 <<< 4 - 1) <<< 28 ||| ((1 <<< 12 - 1) <<< 4 ||| (1 <<< 2 - 1) <<< 0) := rfl
  have low : (w.toNat >>> 4 % 1 <<< 12) <<< 4 ||| (w.toNat >>> 0 % 1 <<< 2) <<< 0 =
      w.toNat / 0x10 % 0x1000 * 0x10 + w.toNat % 4 := by
    rw [← Nat.shiftLeft_add_eq_or_of_lt]
    all_goals simp only [Nat.shiftLeft_eq, Nat.shiftRight_eq_div_pow]
    all_goals omega
  rw [UInt32.toNat_and, mask, Nat.and_or_distrib_left, Nat.and_or_distrib_left, and_field,
    and_field, and_field, low, ← Nat.shiftLeft_add_eq_or_of_lt (by omega)]
  simp only [Nat.shiftLeft_eq, Nat.shiftRight_eq_div_pow]
  omega

theorem toNat_and_not_print (w : UInt32) :
    (w &&& ~~~0x0FFFC000).toNat = w.toNat / 0x10000000 * 0x10000000 + w.toNat % 0x4000 := by
  have bound := w.toNat_lt
  have mask : (~~~0x0FFFC000 : UInt32).toNat =
      (1 <<< 4 - 1) <<< 28 ||| (1 <<< 14 - 1) <<< 0 := rfl
  rw [UInt32.toNat_and, mask, Nat.and_or_distrib_left, and_field, and_field,
    ← Nat.shiftLeft_add_eq_or_of_lt]
  all_goals simp only [Nat.shiftLeft_eq, Nat.shiftRight_eq_div_pow]
  all_goals omega

theorem residue_ofResidue (size : Nat) (small : size ≤ 0x100000000) (n : Nat) (fits : n < size) :
    residue size (ofResidue size n) = n := by
  have positive : 0 < size := by omega
  have lower := @Int.le_bmod n size positive
  have upper := @Int.bmod_lt n size positive
  have value : (ofResidue size n).toInt = Int.bmod n size :=
    Int32.toInt_ofInt_of_le (by omega) (by omega)
  rw [residue, value, Int.bmod_emod, Int.emod_eq_of_lt (by omega) (by omega), Int.toNat_natCast]

theorem wordResidue_ofNat (size : Nat) (small : size ≤ 0x20000000) (n : Nat) (fits : n < size) :
    wordResidue size (Int32.ofNat (4 * n)) = n := by
  have value : (Int32.ofNat (4 * n)).toInt = (4 * n : Nat) := Int32.toInt_ofNat_of_lt (by omega)
  have quotient : ((4 * n : Nat) : Int) / 4 = n := by omega
  rw [wordResidue, value, quotient, Int.emod_eq_of_lt (by omega) (by omega), Int.toNat_natCast]

theorem encode_decodeMisc (w : UInt32) (family : w.toNat / 0x10000000 = 0) :
    encode (decodeMisc w) = w := by
  apply UInt32.toNat_inj.1
  rw [toNat_encode, decodeMisc]
  split
  case h_2 sub =>
    have first := wordResidue_ofNat 0x1000 (by decide) (w.toNat % 0x1000000 / 0x1000) (by omega)
    have second := wordResidue_ofNat 0x1000 (by decide) (w.toNat % 0x1000000 % 0x1000) (by omega)
    simp only [encodeNat, first, second]
    omega
  case h_3 sub | h_4 sub =>
    split
    next low =>
      simp only [encodeNat]
      omega
    next => rfl
  case h_7 => rfl
  -- What is left is `exit`, `debug` and `stinput`.
  all_goals
    simp only [encodeNat, UInt32.toNat_ofNat']
    omega

theorem encode_decodeBinary (w : UInt32) (family : w.toNat / 0x10000000 = 2) :
    encode (decodeBinary w) = w := by
  apply UInt32.toNat_inj.1
  rw [toNat_encode, decodeBinary]
  split
  next defined =>
    simp only [encodeNat, UInt8.toNat_ofNat']
    omega
  next => rfl

theorem encode_decodeUnary (w : UInt32) (family : w.toNat / 0x10000000 = 3) :
    encode (decodeUnary w) = w := by
  apply UInt32.toNat_inj.1
  rw [toNat_encode, decodeUnary]
  split
  next defined =>
    simp only [encodeNat, UInt8.toNat_ofNat']
    omega
  next => rfl

theorem encode_decode_stprint (w : UInt32) (family : w.toNat / 0x10000000 = 0x4) :
    encode (decode w) = w &&& ~~~0x0FFF000C := by
  have cell := wordResidue_ofNat 0x1000 (by decide) (w.toNat / 0x10 % 0x1000) (by omega)
  apply UInt32.toNat_inj.1
  rw [toNat_encode, toNat_and_not_stprint]
  simp only [decode, family, encodeNat, cell, UInt8.toNat_ofNat']
  omega

theorem encode_decode_print (w : UInt32) (family : w.toNat / 0x10000000 = 0xD) :
    encode (decode w) = w &&& ~~~0x0FFFC000 := by
  have cell := wordResidue_ofNat 0x1000 (by decide) (w.toNat / 4 % 0x1000) (by omega)
  apply UInt32.toNat_inj.1
  rw [toNat_encode, toNat_and_not_print]
  simp only [decode, family, encodeNat, cell, UInt8.toNat_ofNat']
  omega

theorem encode_decode_of_unreserved (w : UInt32) (stprint : w.toNat / 0x10000000 ≠ 0x4)
    (print : w.toNat / 0x10000000 ≠ 0xD) : encode (decode w) = w := by
  have bound := w.toNat_lt
  rw [decode]
  split
  case h_1 family => exact encode_decodeMisc w family
  case h_3 family => exact encode_decodeBinary w family
  case h_4 family => exact encode_decodeUnary w family
  case h_5 family => exact absurd family stprint
  case h_12 family => exact absurd family print
  case h_15 => exact UInt32.ofNat_toNat
  -- The families from here on have fields, which are compared as numbers.
  all_goals apply UInt32.toNat_inj.1; rw [toNat_encode]
  case h_6 family | h_8 family =>
    have low := residue_ofResidue 0x10000000 (by decide) (w.toNat % 0x10000000) (by omega)
    simp only [encodeNat, low]
    omega
  case h_9 family =>
    have low := residue_ofResidue 0x2000000 (by decide) (w.toNat % 0x2000000) (by omega)
    simp only [encodeNat, low, UInt8.toNat_ofNat']
    omega
  case h_10 family =>
    have low := residue_ofResidue 0x4000000 (by decide) (w.toNat % 0x4000000) (by omega)
    simp only [encodeNat, low, UInt8.toNat_ofNat']
    omega
  case h_11 family =>
    have low := wordResidue_ofNat 0x10000000 (by decide) (w.toNat % 0x10000000) (by omega)
    simp only [encodeNat, low]
    omega
  case h_13 family =>
    split
    next low =>
      simp only [encodeNat]
      omega
    next => rfl
  -- What is left is `pop`, `return` and `push`, with one unsigned field.
  all_goals
    simp only [encodeNat, UInt32.toNat_ofNat']
    omega

theorem encode_decode (w : UInt32) : encode (decode w) = w &&& ~~~reservedBits w := by
  rw [reservedBits]
  split
  next family => exact encode_decode_stprint w family
  next family => exact encode_decode_print w family
  next stprint print =>
    rw [encode_decode_of_unreserved w stprint print]
    simp

theorem xor_and_eq_zero_iff (v w mask : UInt32) :
    (v ^^^ w) &&& mask = 0 ↔ v &&& mask = w &&& mask := by
  have distribute : (v ^^^ w) &&& mask = (v &&& mask) ^^^ (w &&& mask) := by
    apply UInt32.toBitVec_inj.1
    apply BitVec.eq_of_getLsbD_eq
    intro i _
    simp [Bool.and_xor_distrib_right]
  rw [distribute, UInt32.xor_eq_zero_iff]

theorem and_not_eq_self_iff (w mask : UInt32) : w &&& ~~~mask = w ↔ w &&& mask = 0 := by
  have split : (w &&& ~~~mask) ^^^ w = w &&& mask := by
    apply UInt32.toBitVec_inj.1
    apply BitVec.eq_of_getLsbD_eq
    intro i inside
    simp only [UInt32.toBitVec_xor, UInt32.toBitVec_and, UInt32.toBitVec_not, BitVec.getLsbD_xor,
      BitVec.getLsbD_and, BitVec.getLsbD_not, inside, decide_true, Bool.true_and]
    cases w.toBitVec.getLsbD i <;> cases mask.toBitVec.getLsbD i <;> rfl
  rw [← UInt32.xor_eq_zero_iff, split]

theorem toNat_and_not_reservedBits_div (v w : UInt32) :
    (v &&& ~~~reservedBits w).toNat / 0x10000000 = v.toNat / 0x10000000 := by
  rw [reservedBits]
  split
  next =>
    rw [toNat_and_not_stprint]
    omega
  next =>
    rw [toNat_and_not_print]
    omega
  next => simp

theorem reservedBits_congr {v w : UInt32}
    (family : v.toNat / 0x10000000 = w.toNat / 0x10000000) : reservedBits v = reservedBits w := by
  rw [reservedBits, reservedBits, family]

theorem decode_and_not_reservedBits (w : UInt32) :
    decode (w &&& ~~~reservedBits w) = decode w := by
  rw [reservedBits]
  split
  next family =>
    have value := toNat_and_not_stprint w
    generalize w &&& ~~~0x0FFF000C = cleared at value
    have kept : cleared.toNat / 0x10000000 = 0x4 := by omega
    have cell : cleared.toNat / 0x10 % 0x1000 = w.toNat / 0x10 % 0x1000 := by omega
    have low : cleared.toNat % 4 = w.toNat % 4 := by omega
    simp only [decode, kept, family, cell, low]
  next family =>
    have value := toNat_and_not_print w
    generalize w &&& ~~~0x0FFFC000 = cleared at value
    have kept : cleared.toNat / 0x10000000 = 0xD := by omega
    have cell : cleared.toNat / 4 % 0x1000 = w.toNat / 4 % 0x1000 := by omega
    have low : cleared.toNat % 4 = w.toNat % 4 := by omega
    simp only [decode, kept, family, cell, low]
  next => simp

theorem decode_eq_iff (v w : UInt32) :
    decode v = decode w ↔ (v ^^^ w) &&& ~~~reservedBits w = 0 := by
  rw [xor_and_eq_zero_iff]
  -- Which bits are reserved depends on the family, so both directions settle the family first.
  constructor
  · intro same
    have cleared : v &&& ~~~reservedBits v = w &&& ~~~reservedBits w := by
      rw [← encode_decode, ← encode_decode, same]
    have family : v.toNat / 0x10000000 = w.toNat / 0x10000000 := by
      rw [← toNat_and_not_reservedBits_div v v, cleared, toNat_and_not_reservedBits_div]
    rw [← reservedBits_congr family, cleared, reservedBits_congr family]
  · intro cleared
    have family : v.toNat / 0x10000000 = w.toNat / 0x10000000 := by
      rw [← toNat_and_not_reservedBits_div v w, cleared, toNat_and_not_reservedBits_div]
    rw [← decode_and_not_reservedBits v, reservedBits_congr family, cleared,
      decode_and_not_reservedBits]

/-- Encoding a decoded word gives the word back up to its reserved bits, which come back cleared. So
decoding again finds the same instruction, and words of one instruction differ only there. -/
theorem encode_decode_lossless_up_to_reservedBits (w : UInt32) :
    (encode (decode w) = w ↔ w &&& reservedBits w = 0) ∧
      encode (decode w) = w &&& ~~~reservedBits w ∧
      decode (encode (decode w)) = decode w ∧
      ∀ v, decode v = decode w ↔ (v ^^^ w) &&& ~~~reservedBits w = 0 := by
  refine ⟨?_, encode_decode w, ?_, fun v => decode_eq_iff v w⟩
  · rw [encode_decode, and_not_eq_self_iff]
  · rw [encode_decode, decode_and_not_reservedBits]

end StackAsm.Instruction
