import Mathlib.Algebra.Group.Nat.Defs
import StackAsm.Proofs.Instruction.Truncation

set_option autoImplicit false

namespace StackAsm.Instruction

-- The words once more, put together and taken apart with masks and shifts.
def mask (bits : Nat) : UInt32 :=
  UInt32.ofNat (2 ^ bits - 1)

def familyWord (family sub : UInt32) : UInt32 :=
  family <<< 28 ||| (sub &&& mask 4) <<< 24

def encodeBits : Instruction → UInt32
  | .exit code => familyWord 0x0 0x1 ||| code &&& mask 24
  | .swap source target =>
    familyWord 0x0 0x2 ||| ((source >>> 2).toUInt32 &&& mask 12) <<< 12 |||
      (target >>> 2).toUInt32 &&& mask 12
  | .nop => familyWord 0x0 0x4
  | .input => familyWord 0x0 0x5
  | .debug value => familyWord 0x0 0xD ||| value &&& mask 24
  | .stinput limit => familyWord 0x0 0xF ||| limit &&& mask 24
  | .pop offset => familyWord 0x1 0 ||| offset &&& mask 28
  | .binary operator => familyWord 0x2 operator.toUInt32
  | .unary operator => familyWord 0x3 operator.toUInt32
  | .stprint offset format =>
    familyWord 0x4 0 ||| ((offset >>> 2).toUInt32 &&& mask 12) <<< 4 ||| format.toUInt32 &&& mask 2
  | .call offset => familyWord 0x5 0 ||| offset.toUInt32 &&& mask 28
  | .ret offset => familyWord 0x6 0 ||| offset &&& mask 28
  | .goto offset => familyWord 0x7 0 ||| offset.toUInt32 &&& mask 28
  | .binaryIf condition offset =>
    familyWord 0x8 0 ||| (condition.toUInt32 &&& mask 3) <<< 25 ||| offset.toUInt32 &&& mask 25
  | .unaryIf condition offset =>
    familyWord 0x9 0 ||| (condition.toUInt32 &&& mask 2) <<< 26 ||| offset.toUInt32 &&& mask 26
  | .dup offset => familyWord 0xC 0 ||| (offset >>> 2).toUInt32 &&& mask 28
  | .print offset format =>
    familyWord 0xD 0 ||| ((offset >>> 2).toUInt32 &&& mask 12) <<< 2 ||| format.toUInt32 &&& mask 2
  | .dump => familyWord 0xE 0
  | .push value => familyWord 0xF 0 ||| value &&& mask 28
  | .unknown word => word

-- The low bits of a word as a number with a sign.
def signExtend (bits : Nat) (x : UInt32) : Int32 :=
  (x <<< UInt32.ofNat (32 - bits)).toInt32 >>> Int32.ofNat (32 - bits)

def subfamily (word : UInt32) : UInt32 :=
  word >>> 24 &&& mask 4

def decodeMiscBits (word : UInt32) : Instruction :=
  match (subfamily word).toNat with
  | 0x1 => .exit (word &&& mask 24)
  | 0x2 => .swap ((word >>> 12 &&& mask 12).toInt32 <<< 2) ((word &&& mask 12).toInt32 <<< 2)
  | 0x4 => if word &&& mask 24 = 0 then .nop else .unknown word
  | 0x5 => if word &&& mask 24 = 0 then .input else .unknown word
  | 0xD => .debug (word &&& mask 24)
  | 0xF => .stinput (word &&& mask 24)
  | _ => .unknown word

def decodeBits (word : UInt32) : Instruction :=
  let sub := subfamily word
  match (word >>> 28).toNat with
  | 0x0 => decodeMiscBits word
  | 0x1 => .pop (word &&& mask 28)
  | 0x2 =>
    if 1 ≤ sub ∧ sub ≤ 11 ∧ word &&& mask 24 = 0 then .binary sub.toUInt8 else .unknown word
  | 0x3 => if sub ≤ 1 ∧ word &&& mask 24 = 0 then .unary sub.toUInt8 else .unknown word
  | 0x4 => .stprint ((word >>> 4 &&& mask 12).toInt32 <<< 2) (word &&& mask 2).toUInt8
  | 0x5 => .call (signExtend 28 (word &&& mask 28))
  | 0x6 => .ret (word &&& mask 28)
  | 0x7 => .goto (signExtend 28 (word &&& mask 28))
  | 0x8 =>
    .binaryIf (word >>> 25 &&& mask 3).toUInt8 (signExtend 25 (word &&& mask 25))
  | 0x9 =>
    .unaryIf (word >>> 26 &&& mask 2).toUInt8 (signExtend 26 (word &&& mask 26))
  | 0xC => .dup ((word &&& mask 28).toInt32 <<< 2)
  | 0xD => .print ((word >>> 2 &&& mask 12).toInt32 <<< 2) (word &&& mask 2).toUInt8
  | 0xE => if word &&& mask 28 = 0 then .dump else .unknown word
  | 0xF => .push (word &&& mask 28)
  | _ => .unknown word

theorem toNat_and_mask {bits : Nat} (small : bits ≤ 32) (x : UInt32) :
    (x &&& mask bits).toNat = x.toNat % 2 ^ bits := by
  have fits : 2 ^ bits - 1 < 2 ^ 32 := by
    have bound := Nat.pow_le_pow_right (show 0 < 2 by decide) small
    omega
  rw [UInt32.toNat_and, mask, UInt32.toNat_ofNat', Nat.mod_eq_of_lt fits,
    Nat.and_two_pow_sub_one_eq_mod]

theorem toNat_shiftLeft_of_lt {x shift : UInt32} {bits : Nat} (fits : x.toNat < 2 ^ bits)
    (room : bits + shift.toNat ≤ 32) (short : shift.toNat < 32) :
    (x <<< shift).toNat = x.toNat * 2 ^ shift.toNat := by
  have bound : x.toNat * 2 ^ shift.toNat < 2 ^ 32 :=
    calc x.toNat * 2 ^ shift.toNat < 2 ^ bits * 2 ^ shift.toNat :=
          Nat.mul_lt_mul_of_pos_right fits (Nat.two_pow_pos _)
      _ = 2 ^ (bits + shift.toNat) := (Nat.pow_add ..).symm
      _ ≤ 2 ^ 32 := Nat.pow_le_pow_right (by decide) room
  rw [UInt32.toNat_shiftLeft, Nat.mod_eq_of_lt short, Nat.shiftLeft_eq, Nat.mod_eq_of_lt bound]

theorem toNat_or_of_lt {high low : UInt32} {k : Nat} (aligned : 2 ^ k ∣ high.toNat)
    (fits : low.toNat < 2 ^ k) : (high ||| low).toNat = high.toNat + low.toNat := by
  obtain ⟨q, same⟩ := aligned
  rw [UInt32.toNat_or, same, Nat.two_pow_add_eq_or_of_lt fits]

theorem toNat_or_mask {high : UInt32} {bits : Nat} (small : bits ≤ 32)
    (aligned : 2 ^ bits ∣ high.toNat) (x : UInt32) :
    (high ||| x &&& mask bits).toNat = high.toNat + x.toNat % 2 ^ bits := by
  have low := toNat_and_mask small x
  rw [toNat_or_of_lt aligned (low ▸ Nat.mod_lt _ (Nat.two_pow_pos bits)), low]

theorem toNat_or_shiftLeft {high shift : UInt32} {bits : Nat} (room : bits + shift.toNat ≤ 32)
    (short : shift.toNat < 32) (aligned : 2 ^ (bits + shift.toNat) ∣ high.toNat) (x : UInt32) :
    (high ||| (x &&& mask bits) <<< shift).toNat =
      high.toNat + x.toNat % 2 ^ bits * 2 ^ shift.toNat := by
  have masked := toNat_and_mask (show bits ≤ 32 by omega) x
  have below : x.toNat % 2 ^ bits < 2 ^ bits := Nat.mod_lt _ (Nat.two_pow_pos bits)
  have low : ((x &&& mask bits) <<< shift).toNat = x.toNat % 2 ^ bits * 2 ^ shift.toNat := by
    rw [toNat_shiftLeft_of_lt (masked ▸ below) room short, masked]
  have fits : x.toNat % 2 ^ bits * 2 ^ shift.toNat < 2 ^ (bits + shift.toNat) := by
    rw [Nat.pow_add]
    exact Nat.mul_lt_mul_of_pos_right below (Nat.two_pow_pos _)
  rw [toNat_or_of_lt aligned (low ▸ fits), low]

-- Two fields behind a family: the upper one shifted, the lower one below it.
theorem toNat_or_fields {high shift : UInt32} {upper lower : Nat}
    (room : upper + shift.toNat ≤ 32) (short : shift.toNat < 32) (below : lower ≤ shift.toNat)
    (aligned : 2 ^ (upper + shift.toNat) ∣ high.toNat) (x y : UInt32) :
    (high ||| (x &&& mask upper) <<< shift ||| y &&& mask lower).toNat =
      high.toNat + x.toNat % 2 ^ upper * 2 ^ shift.toNat + y.toNat % 2 ^ lower := by
  have first := toNat_or_shiftLeft room short aligned x
  have divides : 2 ^ lower ∣ high.toNat + x.toNat % 2 ^ upper * 2 ^ shift.toNat :=
    Nat.dvd_add (Nat.dvd_trans (Nat.pow_dvd_pow 2 (by omega)) aligned)
      (Nat.dvd_mul_left_of_dvd (Nat.pow_dvd_pow 2 below) _)
  rw [toNat_or_mask (by omega) (first ▸ divides), first]

theorem toNat_familyWord {family : UInt32} (aligned : 2 ^ 28 ∣ (family <<< 28).toNat)
    (sub : UInt32) :
    (familyWord family sub).toNat = (family <<< 28).toNat + sub.toNat % 16 * 0x1000000 :=
  toNat_or_shiftLeft (by decide) (by decide) aligned sub

theorem toInt_shiftRight {shift : Nat} (short : shift < 32) (offset : Int32) :
    (offset >>> Int32.ofNat shift).toInt = offset.toInt / (2 ^ shift : Nat) := by
  have amount : ∀ k < 32, ((Int32.ofNat k).toBitVec.smod 32).toNat = k := by decide
  rw [Int32.toInt, Int32.toBitVec_shiftRight, BitVec.sshiftRight', amount shift short,
    BitVec.toInt_sshiftRight, Int.shiftRight_eq_div_pow]
  rfl

theorem toNat_toUInt32_mod {bits : Nat} (small : bits ≤ 32) (offset : Int32) :
    offset.toUInt32.toNat % 2 ^ bits = residue (2 ^ bits) offset := by
  have value : offset.toInt = (offset.toUInt32.toNat : Int).bmod (2 ^ 32) :=
    BitVec.toInt_eq_toNat_bmod _
  have divides : ((2 ^ bits : Nat) : Int) ∣ (2 ^ 32 : Nat) :=
    Int.natCast_dvd_natCast.2 (Nat.pow_dvd_pow 2 small)
  rw [residue, value, ← Int.emod_emod_of_dvd _ divides, Int.bmod_emod,
    Int.emod_emod_of_dvd _ divides, ← Int.natCast_emod, Int.toNat_natCast]

theorem toNat_shiftRight_mod {bits : Nat} (small : bits ≤ 32) (offset : Int32) :
    (offset >>> 2).toUInt32.toNat % 2 ^ bits = wordResidue (2 ^ bits) offset := by
  have cells : (offset >>> 2).toInt = offset.toInt / 4 := toInt_shiftRight (by decide) offset
  rw [toNat_toUInt32_mod small, residue, cells, wordResidue]

theorem encode_eq_encodeBits (i : Instruction) : i.encode = i.encodeBits := by
  apply UInt32.toNat.inj
  rw [toNat_encode]
  cases i with
  | exit | debug | stinput | pop | ret | push =>
    rw [encodeBits, toNat_or_mask (by decide) (by decide)]
    rfl
  | call | goto =>
    rw [encodeBits, toNat_or_mask (by decide) (by decide), toNat_toUInt32_mod (by decide)]
    rfl
  | dup =>
    rw [encodeBits, toNat_or_mask (by decide) (by decide), toNat_shiftRight_mod (by decide)]
    rfl
  | swap =>
    rw [encodeBits, toNat_or_fields (by decide) (by decide) (by decide) (by decide),
      toNat_shiftRight_mod (by decide), toNat_shiftRight_mod (by decide)]
    rfl
  | stprint | print =>
    rw [encodeBits, toNat_or_fields (by decide) (by decide) (by decide) (by decide),
      toNat_shiftRight_mod (by decide), UInt8.toNat_toUInt32]
    rfl
  | binaryIf | unaryIf =>
    rw [encodeBits, toNat_or_fields (by decide) (by decide) (by decide) (by decide),
      UInt8.toNat_toUInt32, toNat_toUInt32_mod (by decide)]
    rfl
  | binary | unary =>
    rw [encodeBits, toNat_familyWord (by decide), UInt8.toNat_toUInt32]
    rfl
  | nop | input | dump | unknown => rfl

theorem and_mask {bits : Nat} (small : bits ≤ 32) (x : UInt32) :
    x &&& mask bits = UInt32.ofNat (x.toNat % 2 ^ bits) := by
  rw [← toNat_and_mask small, UInt32.ofNat_toNat]

theorem toNat_shiftRight {shift : UInt32} (short : shift.toNat < 32) (x : UInt32) :
    (x >>> shift).toNat = x.toNat / 2 ^ shift.toNat := by
  rw [UInt32.toNat_shiftRight, Nat.mod_eq_of_lt short, Nat.shiftRight_eq_div_pow]

theorem toInt32_shiftLeft_two (n : Nat) :
    (UInt32.ofNat n).toInt32 <<< 2 = Int32.ofNat (4 * n) := by
  have two : (2 : Int32).toBitVec.smod 32 = 2#32 := by decide
  have value : (2#32).toNat = 2 := rfl
  apply Int32.toBitVec.inj
  apply BitVec.eq_of_toNat_eq
  rw [UInt32.toInt32_ofNat', Int32.toBitVec_shiftLeft, two, BitVec.shiftLeft_eq',
    BitVec.toNat_shiftLeft, Nat.shiftLeft_eq, value]
  simp only [Int32.toBitVec_ofNat', BitVec.toNat_ofNat]
  omega

-- The fields with a sign are 25, 26 and 28 bits wide.
theorem bmod_shift {bits n : Nat} (known : bits ∈ [25, 26, 28]) (fits : n < 2 ^ bits) :
    Int.bmod (n * 2 ^ (32 - bits) : Nat) (2 ^ 32) / (2 ^ (32 - bits) : Nat) =
      Int.bmod n (2 ^ bits) := by
  simp only [List.mem_cons, List.not_mem_nil, or_false] at known
  rcases known with rfl | rfl | rfl
  all_goals
    simp only [Int.bmod_def]
    split <;> split <;> omega

theorem signExtend_ofNat {bits n : Nat} (known : bits ∈ [25, 26, 28]) (fits : n < 2 ^ bits) :
    signExtend bits (UInt32.ofNat n) = ofResidue (2 ^ bits) n := by
  have within : bits ≤ 32 ∧ 32 - bits < 32 := by
    simp only [List.mem_cons, List.not_mem_nil, or_false] at known
    omega
  have bound : 2 ^ bits ≤ 2 ^ 32 := Nat.pow_le_pow_right (by decide) within.1
  have amount : (UInt32.ofNat (32 - bits)).toNat = 32 - bits := by
    rw [UInt32.toNat_ofNat', Nat.mod_eq_of_lt (by omega)]
  have small : (UInt32.ofNat n).toNat = n := by
    rw [UInt32.toNat_ofNat', Nat.mod_eq_of_lt (by omega)]
  have shifted : (UInt32.ofNat n <<< UInt32.ofNat (32 - bits)).toNat = n * 2 ^ (32 - bits) := by
    rw [toNat_shiftLeft_of_lt (small.symm ▸ fits) (by omega) (by omega), small, amount]
  have value : (UInt32.ofNat n <<< UInt32.ofNat (32 - bits)).toInt32.toInt =
      Int.bmod (n * 2 ^ (32 - bits) : Nat) (2 ^ 32) := by
    rw [← shifted]
    exact BitVec.toInt_eq_toNat_bmod _
  rw [ofResidue, ← bmod_shift known fits, ← value, ← toInt_shiftRight within.2, Int32.ofInt_toInt,
    signExtend]

theorem and_mask_eq_zero_iff {bits : Nat} (small : bits ≤ 32) (x : UInt32) :
    x &&& mask bits = 0 ↔ x.toNat % 2 ^ bits = 0 := by
  rw [← toNat_and_mask small, ← UInt32.toNat_inj]
  rfl

section Decoding

variable (word : UInt32)

theorem toNat_subfamily : (subfamily word).toNat = word.toNat / 0x1000000 % 16 := by
  rw [subfamily, toNat_and_mask (by decide), toNat_shiftRight (by decide)]
  rfl

theorem toUInt8_subfamily :
    (subfamily word).toUInt8 = UInt8.ofNat (word.toNat / 0x1000000 % 16) := by
  rw [← toNat_subfamily, ← UInt32.toUInt8_ofNat', UInt32.ofNat_toNat]

theorem decodeMisc_eq_decodeMiscBits : decodeMisc word = decodeMiscBits word := by
  have source : word.toNat % 0x1000000 / 0x1000 = word.toNat / 0x1000 % 0x1000 := by omega
  have target : word.toNat % 0x1000000 % 0x1000 = word.toNat % 0x1000 := by omega
  rw [decodeMiscBits, toNat_subfamily]
  simp only [decodeMisc, source, target, and_mask_eq_zero_iff (show 24 ≤ 32 by decide)]
  simp (disch := decide) only [and_mask, toNat_shiftRight, toInt32_shiftLeft_two]
  rfl

theorem decodeBinary_eq_ite : decodeBinary word =
    if 1 ≤ subfamily word ∧ subfamily word ≤ 11 ∧ word &&& mask 24 = 0 then
      .binary (subfamily word).toUInt8
    else .unknown word := by
  rw [decodeBinary, toUInt8_subfamily]
  simp only [and_mask_eq_zero_iff (show 24 ≤ 32 by decide), UInt32.le_iff_toNat_le, toNat_subfamily]
  congr 1
  rw [eq_iff_iff, and_comm, and_assoc]
  rfl

theorem decodeUnary_eq_ite : decodeUnary word =
    if subfamily word ≤ 1 ∧ word &&& mask 24 = 0 then .unary (subfamily word).toUInt8
    else .unknown word := by
  rw [decodeUnary, toUInt8_subfamily]
  simp only [and_mask_eq_zero_iff (show 24 ≤ 32 by decide), UInt32.le_iff_toNat_le, toNat_subfamily]
  congr 1
  rw [eq_iff_iff, and_comm]
  rfl

theorem decode_eq_decodeBits : decode word = decodeBits word := by
  have family : (word >>> 28).toNat = word.toNat / 0x10000000 := toNat_shiftRight (by decide) word
  have signed {bits : Nat} (known : bits ∈ [25, 26, 28]) :
      signExtend bits (UInt32.ofNat (word.toNat % 2 ^ bits)) =
        ofResidue (2 ^ bits) (word.toNat % 2 ^ bits) :=
    signExtend_ofNat known (Nat.mod_lt _ (Nat.two_pow_pos bits))
  rw [decodeBits, family]
  simp only [decode, decodeMisc_eq_decodeMiscBits, decodeBinary_eq_ite, decodeUnary_eq_ite,
    and_mask_eq_zero_iff (show 28 ≤ 32 by decide)]
  simp (disch := decide) only [and_mask, toNat_shiftRight, toInt32_shiftLeft_two,
    UInt32.toUInt8_ofNat', signed]
  rfl

end Decoding

end StackAsm.Instruction
