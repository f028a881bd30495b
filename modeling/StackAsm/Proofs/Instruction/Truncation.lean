import StackAsm.Instruction.Word

set_option autoImplicit false

namespace StackAsm.Instruction

def cellOffset (size : Nat) (offset : Int32) : Int32 :=
  Int32.ofInt (4 * (offset.toInt / 4 % size))

-- The offset in `[-size / 2, size / 2)` that differs by a multiple of `size`.
def signedOffset (size : Nat) (offset : Int32) : Int32 :=
  Int32.ofInt (offset.toInt.bmod size)

def truncate : Instruction → Instruction
  | .exit code => .exit (code % 0x1000000)
  | .swap source target => .swap (cellOffset 0x1000 source) (cellOffset 0x1000 target)
  | .nop => .nop
  | .input => .input
  | .debug value => .debug (value % 0x1000000)
  | .stinput limit => .stinput (limit % 0x1000000)
  | .pop offset => .pop (offset % 0x10000000)
  | .binary operator =>
    if 1 ≤ operator % 16 ∧ operator % 16 ≤ 11 then .binary (operator % 16)
    else .unknown (encode (.binary operator))
  | .unary operator =>
    if operator % 16 ≤ 1 then .unary (operator % 16) else .unknown (encode (.unary operator))
  | .stprint offset format => .stprint (cellOffset 0x1000 offset) (format % 4)
  | .call offset => .call (signedOffset 0x10000000 offset)
  | .ret offset => .ret (offset % 0x10000000)
  | .goto offset => .goto (signedOffset 0x10000000 offset)
  | .binaryIf condition offset => .binaryIf (condition % 8) (signedOffset 0x2000000 offset)
  | .unaryIf condition offset => .unaryIf (condition % 4) (signedOffset 0x4000000 offset)
  | .dup offset => .dup (cellOffset 0x10000000 offset)
  | .print offset format => .print (cellOffset 0x1000 offset) (format % 4)
  | .dump => .dump
  | .push value => .push (value % 0x10000000)
  | .unknown word => decode word

def Undefined (word : UInt32) : Prop :=
  let sub := word.toNat / 0x1000000 % 16
  let low := word.toNat % 0x1000000
  match word.toNat / 0x10000000 with
  | 0x0 => sub ∉ [0x1, 0x2, 0xD, 0xF] ∧ (sub ∈ [0x4, 0x5] → low ≠ 0)
  | 0x2 => ¬(1 ≤ sub ∧ sub ≤ 11) ∨ low ≠ 0
  | 0x3 => 1 < sub ∨ low ≠ 0
  | 0xA | 0xB => True
  | 0xE => word.toNat % 0x10000000 ≠ 0
  | _ => False

def IsCell (size : Nat) (offset : Int32) : Prop :=
  offset.toInt % 4 = 0 ∧ 0 ≤ offset.toInt ∧ offset.toInt < 4 * size

def IsSigned (size : Nat) (offset : Int32) : Prop :=
  -(size : Int) ≤ 2 * offset.toInt ∧ 2 * offset.toInt < size

def InRange : Instruction → Prop
  | .nop | .input | .dump => True
  | .exit n | .debug n | .stinput n => n < 0x1000000
  | .pop n | .ret n | .push n => n < 0x10000000
  | .binary operator => 1 ≤ operator ∧ operator ≤ 11
  | .unary operator => operator ≤ 1
  | .swap source target => IsCell 0x1000 source ∧ IsCell 0x1000 target
  | .stprint offset format | .print offset format => IsCell 0x1000 offset ∧ format < 4
  | .dup offset => IsCell 0x10000000 offset
  | .call offset | .goto offset => IsSigned 0x10000000 offset
  | .binaryIf condition offset => condition < 8 ∧ IsSigned 0x2000000 offset
  | .unaryIf condition offset => condition < 4 ∧ IsSigned 0x4000000 offset
  | .unknown word => Undefined word

theorem coe_residue (size : Nat) (positive : 0 < size) (offset : Int32) :
    (residue size offset : Int) = offset.toInt % size :=
  Int.toNat_of_nonneg (Int.emod_nonneg _ (by omega))

theorem coe_wordResidue (size : Nat) (positive : 0 < size) (offset : Int32) :
    (wordResidue size offset : Int) = offset.toInt / 4 % size :=
  Int.toNat_of_nonneg (Int.emod_nonneg _ (by omega))

theorem residue_lt (size : Nat) (positive : 0 < size) (offset : Int32) :
    residue size offset < size := by
  have bound := Int.emod_lt_of_pos offset.toInt (Int.ofNat_lt.2 positive)
  rw [← coe_residue size positive] at bound
  exact Int.ofNat_lt.1 bound

theorem wordResidue_lt (size : Nat) (positive : 0 < size) (offset : Int32) :
    wordResidue size offset < size := by
  have bound := Int.emod_lt_of_pos (offset.toInt / 4) (Int.ofNat_lt.2 positive)
  rw [← coe_wordResidue size positive] at bound
  exact Int.ofNat_lt.1 bound

theorem ofResidue_residue (size : Nat) (positive : 0 < size) (offset : Int32) :
    ofResidue size (residue size offset) = signedOffset size offset := by
  rw [ofResidue, coe_residue size positive, Int.emod_bmod, signedOffset]

theorem ofNat_wordResidue (size : Nat) (positive : 0 < size) (offset : Int32) :
    Int32.ofNat (4 * wordResidue size offset) = cellOffset size offset := by
  rw [← Int32.ofInt_eq_ofNat, Int.natCast_mul, coe_wordResidue size positive, cellOffset]
  rfl

theorem encodeNat_div (i : Instruction) : i.encodeNat / 0x10000000 = i.opcode := by
  cases i with
  | swap source target =>
    have first := wordResidue_lt 0x1000 (by decide) source
    have second := wordResidue_lt 0x1000 (by decide) target
    simp only [encodeNat, opcode]
    omega
  | stprint offset format | print offset format =>
    have bound := wordResidue_lt 0x1000 (by decide) offset
    simp only [encodeNat, opcode]
    omega
  | call offset | goto offset =>
    have bound := residue_lt 0x10000000 (by decide) offset
    simp only [encodeNat, opcode]
    omega
  | binaryIf condition offset =>
    have bound := residue_lt 0x2000000 (by decide) offset
    simp only [encodeNat, opcode]
    omega
  | unaryIf condition offset =>
    have bound := residue_lt 0x4000000 (by decide) offset
    simp only [encodeNat, opcode]
    omega
  | dup offset =>
    have bound := wordResidue_lt 0x10000000 (by decide) offset
    simp only [encodeNat, opcode]
    omega
  | nop | input | dump | unknown word => rfl
  | _ =>
    simp only [encodeNat, opcode]
    omega

theorem opcode_lt (i : Instruction) : i.opcode < 16 := by
  cases i with
  | unknown word =>
    have bound := word.toNat_lt
    simp only [opcode]
    omega
  | _ =>
    simp only [opcode]
    omega

theorem toNat_encode (i : Instruction) : (encode i).toNat = i.encodeNat := by
  have family := encodeNat_div i
  have bound := opcode_lt i
  rw [encode, UInt32.toNat_ofNat']
  exact Nat.mod_eq_of_lt (by omega)

theorem toNat_encode_div (i : Instruction) : (encode i).toNat / 0x10000000 = i.opcode := by
  rw [toNat_encode, encodeNat_div]

theorem ofNat_toNat_mod (n size : UInt32) : UInt32.ofNat (n.toNat % size.toNat) = n % size := by
  rw [← UInt32.toNat_mod, UInt32.ofNat_toNat]

theorem ofNat_toNat_mod_byte (n size : UInt8) :
    UInt8.ofNat (n.toNat % size.toNat) = n % size := by
  rw [← UInt8.toNat_mod, UInt8.ofNat_toNat]

theorem fields_of_misc {w : UInt32} (sub : Nat) (n : UInt32) (small : sub < 16)
    (value : w.toNat = sub * 0x1000000 + n.toNat % 0x1000000) :
    w.toNat / 0x1000000 % 16 = sub ∧ UInt32.ofNat (w.toNat % 0x1000000) = n % 0x1000000 := by
  have low : w.toNat % 0x1000000 = n.toNat % 0x1000000 := by omega
  refine ⟨by omega, ?_⟩
  rw [low]
  exact ofNat_toNat_mod n 0x1000000

theorem decode_encode (i : Instruction) : decode (encode i) = i.truncate := by
  have family := toNat_encode_div i
  have value := toNat_encode i
  -- From here on the word is only known by its digits, which each case reads off `value`.
  generalize word : encode i = w at family value
  cases i with
  | nop | input | dump =>
    rw [← word]
    rfl
  | exit n =>
    obtain ⟨sub, low⟩ := fields_of_misc 0x1 n (by decide) value
    simp only [decode, family, opcode, decodeMisc, sub, low, truncate]
  | debug n =>
    obtain ⟨sub, low⟩ := fields_of_misc 0xD n (by decide) value
    simp only [decode, family, opcode, decodeMisc, sub, low, truncate]
  | stinput n =>
    obtain ⟨sub, low⟩ := fields_of_misc 0xF n (by decide) value
    simp only [decode, family, opcode, decodeMisc, sub, low, truncate]
  | swap source target =>
    simp only [opcode, encodeNat] at family value
    have first := wordResidue_lt 0x1000 (by decide) source
    have second := wordResidue_lt 0x1000 (by decide) target
    have sub : w.toNat / 0x1000000 % 16 = 0x2 := by omega
    have high : w.toNat % 0x1000000 / 0x1000 = wordResidue 0x1000 source := by omega
    have low : w.toNat % 0x1000000 % 0x1000 = wordResidue 0x1000 target := by omega
    simp only [decode, family, decodeMisc, sub, high, low, truncate,
      ofNat_wordResidue 0x1000 (by decide)]
  | pop n | ret n | push n =>
    simp only [opcode, encodeNat] at family value
    have low : w.toNat % 0x10000000 = n.toNat % 0x10000000 := by omega
    simp only [decode, family, low, truncate]
    exact congrArg _ (ofNat_toNat_mod n 0x10000000)
  | binary operator =>
    simp only [opcode, encodeNat] at family value
    have sub : w.toNat / 0x1000000 % 16 = operator.toNat % 16 := by omega
    have low : w.toNat % 0x1000000 = 0 := by omega
    simp only [decode, family, decodeBinary, sub, low, truncate, true_and, word,
      UInt8.le_iff_toNat_le, UInt8.toNat_mod]
    rw [← ofNat_toNat_mod_byte]
    rfl
  | unary operator =>
    simp only [opcode, encodeNat] at family value
    have sub : w.toNat / 0x1000000 % 16 = operator.toNat % 16 := by omega
    have low : w.toNat % 0x1000000 = 0 := by omega
    simp only [decode, family, decodeUnary, sub, low, truncate, true_and, word,
      UInt8.le_iff_toNat_le, UInt8.toNat_mod]
    rw [← ofNat_toNat_mod_byte]
    rfl
  | stprint offset format =>
    simp only [opcode, encodeNat] at family value
    have bound := wordResidue_lt 0x1000 (by decide) offset
    have cell : w.toNat / 0x10 % 0x1000 = wordResidue 0x1000 offset := by omega
    have low : w.toNat % 4 = format.toNat % 4 := by omega
    simp only [decode, family, cell, low, truncate, ofNat_wordResidue 0x1000 (by decide)]
    exact congrArg (stprint _) (ofNat_toNat_mod_byte format 4)
  | print offset format =>
    simp only [opcode, encodeNat] at family value
    have bound := wordResidue_lt 0x1000 (by decide) offset
    have cell : w.toNat / 4 % 0x1000 = wordResidue 0x1000 offset := by omega
    have low : w.toNat % 4 = format.toNat % 4 := by omega
    simp only [decode, family, cell, low, truncate, ofNat_wordResidue 0x1000 (by decide)]
    exact congrArg (print _) (ofNat_toNat_mod_byte format 4)
  | call offset | goto offset =>
    simp only [opcode, encodeNat] at family value
    have bound := residue_lt 0x10000000 (by decide) offset
    have low : w.toNat % 0x10000000 = residue 0x10000000 offset := by omega
    simp only [decode, family, low, truncate, ofResidue_residue 0x10000000 (by decide)]
  | binaryIf condition offset =>
    simp only [opcode, encodeNat] at family value
    have bound := residue_lt 0x2000000 (by decide) offset
    have high : w.toNat / 0x2000000 % 8 = condition.toNat % 8 := by omega
    have low : w.toNat % 0x2000000 = residue 0x2000000 offset := by omega
    simp only [decode, family, high, low, truncate, ofResidue_residue 0x2000000 (by decide)]
    exact congrArg (binaryIf · _) (ofNat_toNat_mod_byte condition 8)
  | unaryIf condition offset =>
    simp only [opcode, encodeNat] at family value
    have bound := residue_lt 0x4000000 (by decide) offset
    have high : w.toNat / 0x4000000 % 4 = condition.toNat % 4 := by omega
    have low : w.toNat % 0x4000000 = residue 0x4000000 offset := by omega
    simp only [decode, family, high, low, truncate, ofResidue_residue 0x4000000 (by decide)]
    exact congrArg (unaryIf · _) (ofNat_toNat_mod_byte condition 4)
  | dup offset =>
    simp only [opcode, encodeNat] at family value
    have bound := wordResidue_lt 0x10000000 (by decide) offset
    have low : w.toNat % 0x10000000 = wordResidue 0x10000000 offset := by omega
    simp only [decode, family, low, truncate, ofNat_wordResidue 0x10000000 (by decide)]
  | unknown v =>
    rw [encode, encodeNat, UInt32.ofNat_toNat] at word
    rw [truncate, word]

theorem toInt_cellOffset (size : Nat) (positive : 0 < size) (small : size ≤ 0x20000000)
    (offset : Int32) : (cellOffset size offset).toInt = 4 * (offset.toInt / 4 % size) := by
  have lower := Int.emod_nonneg (offset.toInt / 4) (Int.ofNat_ne_zero.2 (Nat.ne_of_gt positive))
  have upper := Int.emod_lt_of_pos (offset.toInt / 4) (Int.ofNat_lt.2 positive)
  exact Int32.toInt_ofInt_of_le (by omega) (by omega)

theorem toInt_signedOffset (size : Nat) (positive : 0 < size) (small : size ≤ 0x100000000)
    (offset : Int32) : (signedOffset size offset).toInt = offset.toInt.bmod size := by
  have lower := @Int.le_bmod offset.toInt size positive
  have upper := @Int.bmod_lt offset.toInt size positive
  exact Int32.toInt_ofInt_of_le (by omega) (by omega)

theorem cellOffset_eq_self_iff (size : Nat) (positive : 0 < size) (small : size ≤ 0x20000000)
    (offset : Int32) : cellOffset size offset = offset ↔ IsCell size offset := by
  rw [← Int32.toInt_inj, toInt_cellOffset size positive small, IsCell]
  constructor
  · intro same
    have lower := Int.emod_nonneg (offset.toInt / 4) (Int.ofNat_ne_zero.2 (Nat.ne_of_gt positive))
    have upper := Int.emod_lt_of_pos (offset.toInt / 4) (Int.ofNat_lt.2 positive)
    omega
  · rintro ⟨cell, lower, upper⟩
    rw [Int.emod_eq_of_lt (by omega) (by omega)]
    omega

theorem signedOffset_eq_self_iff (size : Nat) (positive : 0 < size) (small : size ≤ 0x100000000)
    (even : 2 ∣ size) (offset : Int32) :
    signedOffset size offset = offset ↔ IsSigned size offset := by
  rw [← Int32.toInt_inj, toInt_signedOffset size positive small, Int.bmod_eq_iff positive, IsSigned,
    Int.sub_self]
  constructor
  · rintro ⟨lower, upper, -⟩
    omega
  · rintro ⟨lower, upper⟩
    exact ⟨by omega, by omega, Int.dvd_zero _⟩

theorem mod_eq_self_iff (n size : UInt32) (positive : 0 < size) : n % size = n ↔ n < size := by
  rw [← UInt32.toNat_inj, UInt32.toNat_mod, UInt32.lt_iff_toNat_lt]
  exact Nat.mod_eq_iff_lt (Nat.ne_of_gt (UInt32.lt_iff_toNat_lt.1 positive))

theorem mod_eq_self_iff_byte (n size : UInt8) (positive : 0 < size) : n % size = n ↔ n < size := by
  rw [← UInt8.toNat_inj, UInt8.toNat_mod, UInt8.lt_iff_toNat_lt]
  exact Nat.mod_eq_iff_lt (Nat.ne_of_gt (UInt8.lt_iff_toNat_lt.1 positive))

theorem decodeMisc_eq_unknown_iff (w : UInt32) :
    decodeMisc w = .unknown w ↔
      w.toNat / 0x1000000 % 16 ∉ [0x1, 0x2, 0xD, 0xF] ∧
        (w.toNat / 0x1000000 % 16 ∈ [0x4, 0x5] → w.toNat % 0x1000000 ≠ 0) := by
  simp only [decodeMisc]
  split <;> simp_all

theorem decodeBinary_eq_unknown_iff (w : UInt32) :
    decodeBinary w = .unknown w ↔
      ¬(1 ≤ w.toNat / 0x1000000 % 16 ∧ w.toNat / 0x1000000 % 16 ≤ 11) ∨
        w.toNat % 0x1000000 ≠ 0 := by
  simp only [decodeBinary]
  split <;> simp <;> omega

theorem decodeUnary_eq_unknown_iff (w : UInt32) :
    decodeUnary w = .unknown w ↔ 1 < w.toNat / 0x1000000 % 16 ∨ w.toNat % 0x1000000 ≠ 0 := by
  simp only [decodeUnary]
  split <;> simp <;> omega

theorem decode_eq_unknown_iff (w : UInt32) : decode w = .unknown w ↔ Undefined w := by
  have bound : w.toNat / 0x10000000 < 16 := by
    have := w.toNat_lt
    omega
  simp only [decode, Undefined]
  generalize w.toNat / 0x10000000 = family at bound
  match family, bound with
  | 0x0, _ => exact decodeMisc_eq_unknown_iff w
  | 0x2, _ => exact decodeBinary_eq_unknown_iff w
  | 0x3, _ => exact decodeUnary_eq_unknown_iff w
  | 0xA, _ | 0xB, _ => simp
  | 0xE, _ => simp
  | 0x1, _ | 0x4, _ | 0x5, _ | 0x6, _ | 0x7, _ | 0x8, _ | 0x9, _ | 0xC, _ | 0xD, _ | 0xF, _ => simp
  | n + 16, above => omega

theorem truncate_eq_self_iff (i : Instruction) : i.truncate = i ↔ i.InRange := by
  cases i with
  | nop | input | dump => simp [truncate, InRange]
  | exit n | debug n | stinput n =>
    simp only [truncate, InRange, exit.injEq, debug.injEq, stinput.injEq]
    exact mod_eq_self_iff n 0x1000000 (by decide)
  | pop n | ret n | push n =>
    simp only [truncate, InRange, pop.injEq, ret.injEq, push.injEq]
    exact mod_eq_self_iff n 0x10000000 (by decide)
  | swap source target =>
    simp only [truncate, InRange, swap.injEq,
      cellOffset_eq_self_iff 0x1000 (by decide) (by decide)]
  | binary operator =>
    simp only [truncate, InRange, UInt8.le_iff_toNat_le, UInt8.toNat_mod, UInt8.reduceToNat]
    split
    next range =>
      simp only [binary.injEq, ← UInt8.toNat_inj, UInt8.toNat_mod, UInt8.reduceToNat]
      omega
    next range =>
      simp only [reduceCtorEq, false_iff]
      omega
  | unary operator =>
    simp only [truncate, InRange, UInt8.le_iff_toNat_le, UInt8.toNat_mod, UInt8.reduceToNat]
    split
    next range =>
      simp only [unary.injEq, ← UInt8.toNat_inj, UInt8.toNat_mod, UInt8.reduceToNat]
      omega
    next range =>
      simp only [reduceCtorEq, false_iff]
      omega
  | stprint offset format | print offset format =>
    simp only [truncate, InRange, stprint.injEq, print.injEq,
      cellOffset_eq_self_iff 0x1000 (by decide) (by decide),
      mod_eq_self_iff_byte format 4 (by decide)]
  | call offset | goto offset =>
    simp only [truncate, InRange, call.injEq, goto.injEq,
      signedOffset_eq_self_iff 0x10000000 (by decide) (by decide) (by decide)]
  | binaryIf condition offset =>
    simp only [truncate, InRange, binaryIf.injEq, mod_eq_self_iff_byte condition 8 (by decide),
      signedOffset_eq_self_iff 0x2000000 (by decide) (by decide) (by decide)]
  | unaryIf condition offset =>
    simp only [truncate, InRange, unaryIf.injEq, mod_eq_self_iff_byte condition 4 (by decide),
      signedOffset_eq_self_iff 0x4000000 (by decide) (by decide) (by decide)]
  | dup offset =>
    simp only [truncate, InRange, dup.injEq,
      cellOffset_eq_self_iff 0x10000000 (by decide) (by decide)]
  | unknown word => exact decode_eq_unknown_iff word

/-- Every instruction comes back from its word with its operands cut to their fields, its family is
the top digit of the word, and it comes back unchanged just when its operands were in range. -/
theorem decode_encode_eq_truncate (i : Instruction) :
    decode (encode i) = i.truncate ∧ (encode i >>> 28).toNat = i.opcode ∧
      (decode (encode i) = i ↔ i.InRange) := by
  refine ⟨decode_encode i, ?_, ?_⟩
  · rw [UInt32.toNat_shiftRight, Nat.shiftRight_eq_div_pow]
    exact toNat_encode_div i
  · rw [decode_encode, truncate_eq_self_iff]

end StackAsm.Instruction
