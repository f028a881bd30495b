import StackAsm.Proofs.Instruction.Truncation

set_option autoImplicit false

namespace StackAsm

open Instruction

structure Field where
  start : Nat
  width : Nat
  unit : Int
  deriving DecidableEq, Repr

namespace Field

def read (f : Field) (word : UInt32) : BitVec f.width :=
  word.toBitVec.extractLsb' f.start f.width

def residue (f : Field) (v : Int) : BitVec f.width :=
  BitVec.ofInt f.width (v / f.unit)

def Covers (f : Field) (bit : Nat) : Prop :=
  f.start ≤ bit ∧ bit < f.start + f.width

def AgreeOutside (f : Field) (x y : UInt32) : Prop :=
  ∀ bit, ¬ f.Covers bit → x.toBitVec.getLsbD bit = y.toBitVec.getLsbD bit

structure Holds (f : Field) (make : Int → Instruction) : Prop where
  read_encode (v : Int) : f.read (encode (make v)) = f.residue v
  agree (v w : Int) : f.AgreeOutside (encode (make v)) (encode (make w))

structure Layout (f : Field) (make : Int → Instruction) (high low : Nat) : Prop where
  fits : low < 1 <<< f.start
  word (v : Int) :
    encodeNat (make v) = (high <<< f.width + (f.residue v).toNat) <<< f.start + low

theorem testBit_shiftLeft_add {low start : Nat} (fits : low < 1 <<< start) (high bit : Nat) :
    (high <<< start + low).testBit bit =
      if bit < start then low.testBit bit else high.testBit (bit - start) := by
  rw [Nat.one_shiftLeft] at fits
  rw [Nat.shiftLeft_eq, Nat.mul_comm, Nat.testBit_two_pow_mul_add high fits]

variable {f : Field} {make : Int → Instruction} {high low : Nat}

theorem Layout.getLsbD_encode (layout : f.Layout make high low) (v : Int) (bit : Nat) :
    (encode (make v)).toBitVec.getLsbD bit =
      if bit < f.start then low.testBit bit
      else if bit - f.start < f.width then (f.residue v).getLsbD (bit - f.start)
      else high.testBit (bit - f.start - f.width) := by
  have small : (f.residue v).toNat < 1 <<< f.width := by
    rw [Nat.one_shiftLeft]
    exact (f.residue v).isLt
  have word : (encode (make v)).toBitVec.toNat = _ := (toNat_encode (make v)).trans (layout.word v)
  rw [← BitVec.testBit_toNat, word, testBit_shiftLeft_add layout.fits,
    testBit_shiftLeft_add small, BitVec.testBit_toNat]

theorem Layout.holds (layout : f.Layout make high low) : f.Holds make where
  read_encode v := by
    apply BitVec.eq_of_getLsbD_eq
    intro bit inside
    rw [read, BitVec.getLsbD_extractLsb', layout.getLsbD_encode, if_neg (by omega),
      Nat.add_sub_cancel_left, if_pos inside, decide_eq_true inside, Bool.true_and]
  agree v w := by
    intro bit outside
    rw [layout.getLsbD_encode, layout.getLsbD_encode]
    by_cases below : bit < f.start
    next => rw [if_pos below, if_pos below]
    next =>
      have above : ¬ bit - f.start < f.width := fun inside => outside ⟨by omega, by omega⟩
      simp only [above, if_false]

end Field

namespace Instruction

-- A register of 32 bits drops a multiple of every narrower field, in bytes or in cells.
theorem dvd_of_le {narrow wide : Nat} (le : narrow ≤ wide) :
    ((1 <<< narrow : Nat) : Int) ∣ ((1 <<< wide : Nat) : Int) := by
  rw [Nat.one_shiftLeft, Nat.one_shiftLeft]
  exact Int.natCast_dvd_natCast.2 (Nat.pow_dvd_pow 2 le)

theorem toNat_bitVec_ofInt (width : Nat) (v : Int) :
    (BitVec.ofInt width v).toNat = (v % (1 <<< width : Nat)).toNat := by
  rw [BitVec.toNat_ofInt, Nat.one_shiftLeft]

theorem toNat_ofInt_mod {width : Nat} (small : width ≤ 32) (v : Int) :
    (UInt32.ofInt v).toNat % (1 <<< width) = (BitVec.ofInt width v).toNat := by
  have nonneg : 0 ≤ v % (1 <<< 32 : Nat) := Int.emod_nonneg v (by decide)
  have below : v % (1 <<< 32 : Nat) < (1 <<< 32 : Nat) := Int.emod_lt_of_pos v (by decide)
  have value : (UInt32.ofInt v).toNat = (v % (1 <<< 32 : Nat)).toNat := by
    rw [UInt32.ofInt, UInt32.toNat_ofNat']
    exact Nat.mod_eq_of_lt (by omega)
  rw [toNat_bitVec_ofInt, value, ← Int.emod_emod_of_dvd v (dvd_of_le small),
    Int.toNat_emod nonneg (Int.natCast_nonneg _), Int.toNat_natCast]

theorem wordResidue_ofInt {width : Nat} (small : width ≤ 30) (v : Int) :
    wordResidue (1 <<< width) (Int32.ofInt v) = (BitVec.ofInt width (v / 4)).toNat := by
  have whole := Int.bmod_add_bdiv v Int32.size
  have dropped : (Int32.ofInt v).toInt / 4 = v / 4 - 0x40000000 * v.bdiv Int32.size := by
    rw [Int32.toInt_ofInt]
    simp only [Int32.size] at whole ⊢
    omega
  have multiple : ((1 <<< width : Nat) : Int) ∣ 0x40000000 * v.bdiv Int32.size :=
    Int.dvd_mul_of_dvd_left (dvd_of_le small)
  rw [wordResidue, dropped, toNat_bitVec_ofInt, Int.sub_emod, Int.emod_eq_zero_of_dvd multiple,
    Int.sub_zero, Int.emod_emod]

theorem holds_lowest (width : Nat) (small : width ≤ 32) (make : UInt32 → Instruction) (high : Nat)
    (word : ∀ n, encodeNat (make n) = high <<< width + n.toNat % (1 <<< width)) :
    Field.Holds ⟨0, width, 1⟩ fun v => make (UInt32.ofInt v) := by
  have layout : Field.Layout ⟨0, width, 1⟩ (fun v => make (UInt32.ofInt v)) high 0 := by
    refine ⟨Nat.one_pos, fun v => ?_⟩
    rw [word, toNat_ofInt_mod small, Field.residue, Int.ediv_one]
    rfl
  exact layout.holds

theorem holds_cells (start width : Nat) (small : width ≤ 30) (make : Int32 → Instruction)
    (high : Nat) {low : Nat} (fits : low < 1 <<< start)
    (word : ∀ n, encodeNat (make n) =
      (high <<< width + wordResidue (1 <<< width) n) <<< start + low) :
    Field.Holds ⟨start, width, 4⟩ fun v => make (Int32.ofInt v) := by
  have layout : Field.Layout ⟨start, width, 4⟩ (fun v => make (Int32.ofInt v)) high low :=
    ⟨fits, fun v => by rw [word, wordResidue_ofInt small]; rfl⟩
  exact layout.holds

inductive FieldOf : Field → (Int → Instruction) → Prop where
  | exit : FieldOf ⟨0, 24, 1⟩ fun v => .exit (UInt32.ofInt v)
  | stinput : FieldOf ⟨0, 24, 1⟩ fun v => .stinput (UInt32.ofInt v)
  | debug : FieldOf ⟨0, 24, 1⟩ fun v => .debug (UInt32.ofInt v)
  | pop : FieldOf ⟨0, 28, 1⟩ fun v => .pop (UInt32.ofInt v)
  | push : FieldOf ⟨0, 28, 1⟩ fun v => .push (UInt32.ofInt v)
  | ret : FieldOf ⟨0, 28, 1⟩ fun v => .ret (UInt32.ofInt v)
  | dup : FieldOf ⟨0, 28, 4⟩ fun v => .dup (Int32.ofInt v)
  | source (target : Int32) : FieldOf ⟨12, 12, 4⟩ fun v => .swap (Int32.ofInt v) target
  | target (source : Int32) : FieldOf ⟨0, 12, 4⟩ fun v => .swap source (Int32.ofInt v)
  | stprint (format : UInt8) : FieldOf ⟨4, 12, 4⟩ fun v => .stprint (Int32.ofInt v) format
  | print (format : UInt8) : FieldOf ⟨2, 12, 4⟩ fun v => .print (Int32.ofInt v) format

theorem FieldOf.holds {f : Field} {make : Int → Instruction} (field : FieldOf f make) :
    f.Holds make := by
  cases field with
  | exit => exact holds_lowest 24 (by decide) .exit 0x1 fun _ => rfl
  | stinput => exact holds_lowest 24 (by decide) .stinput 0xF fun _ => rfl
  | debug => exact holds_lowest 24 (by decide) .debug 0xD fun _ => rfl
  | pop => exact holds_lowest 28 (by decide) .pop 0x1 fun _ => rfl
  | push => exact holds_lowest 28 (by decide) .push 0xF fun _ => rfl
  | ret => exact holds_lowest 28 (by decide) .ret 0x6 fun _ => rfl
  | dup => exact holds_cells 0 28 (by decide) .dup 0xC Nat.one_pos fun _ => rfl
  | source target =>
    have fits := wordResidue_lt 0x1000 (by decide) target
    refine holds_cells 12 12 (by decide) (.swap · target) 0x2 fits fun n => ?_
    simp only [encodeNat, Nat.reduceShiftLeft]
    omega
  | target source =>
    -- What stands above this field includes the other one.
    refine holds_cells 0 12 (by decide) (.swap source) (0x2000 + wordResidue 0x1000 source)
      Nat.one_pos fun n => ?_
    simp only [encodeNat, Nat.reduceShiftLeft]
    omega
  | stprint format =>
    have fits : format.toNat % 4 < 1 <<< 4 := Nat.lt_trans (Nat.mod_lt _ (by decide)) (by decide)
    refine holds_cells 4 12 (by decide) (.stprint · format) 0x4000 fits fun n => ?_
    simp only [encodeNat, Nat.reduceShiftLeft]
    omega
  | print format =>
    have fits : format.toNat % 4 < 1 <<< 2 := Nat.mod_lt _ (by decide)
    refine holds_cells 2 12 (by decide) (.print · format) 0x34000 fits fun n => ?_
    simp only [encodeNat, Nat.reduceShiftLeft]
    omega

end Instruction

end StackAsm
