import StackAsm.Instruction.Printer
import StackAsm.Proofs.Text.Token

set_option autoImplicit false

namespace StackAsm.Numeral

open Ascii

theorem digitIn?_of_mem_digits {base : Nat} (large : 2 ≤ base) (small : base ≤ 16) (n : Nat) :
    ∀ b ∈ digits base n, ∃ d, digitIn? base b = some d := by
  induction n using Nat.strongRecOn with
  | _ n ih =>
    by_cases h : n < base
    · rw [digits, Nat.toDigits_of_lt_base h]
      simp [digitIn?_digitChar small h]
    · have smaller : n / base < n := Nat.div_lt_self (by omega) (by omega)
      have digit : n % base < base := Nat.mod_lt _ (by omega)
      rw [digits, Nat.toDigits_of_base_le (by omega) (by omega), List.map_append]
      intro b member
      rcases List.mem_append.1 member with earlier | last
      · exact ih _ smaller b earlier
      · rw [List.map_singleton, List.mem_singleton] at last
        exact ⟨_, last ▸ digitIn?_digitChar small digit⟩

theorem digits_ne_nil {base : Nat} (large : 2 ≤ base) (n : Nat) : digits base n ≠ [] := by
  rw [digits, Nat.toDigits_eq_if large]
  split <;> simp

theorem isPlain_of_digit : ∀ b, (digitValue? b).isSome → isPlain b :=
  forall_byte (by decide +kernel)

theorem not_decimal_digit : ∀ b ∈ [hyphen, plus, 0x78, 0x58], digitIn? 10 b = none := by
  decide +kernel

theorem isPlain_of_mem_digits {base : Nat} (large : 2 ≤ base) (small : base ≤ 16) (n : Nat) :
    ∀ b ∈ digits base n, isPlain b := by
  intro b member
  obtain ⟨d, read⟩ := digitIn?_of_mem_digits large small n b member
  apply isPlain_of_digit
  rw [digitIn?, Option.filter_eq_some_iff] at read
  simp [read.1]

theorem isToken_digits {base : Nat} (large : 2 ≤ base) (small : base ≤ 16) (n : Nat) :
    isToken (digits base n) := by
  simp only [isToken, Bool.and_eq_true, bne_iff_ne, List.all_eq_true]
  exact ⟨digits_ne_nil large n, isPlain_of_mem_digits large small n⟩

theorem not_mem_decimal {b : UInt8} (other : b ∈ [hyphen, plus, 0x78, 0x58]) (n : Nat) :
    b ∉ decimal n := by
  intro member
  obtain ⟨d, read⟩ := digitIn?_of_mem_digits (by decide) (by decide) n b member
  rw [not_decimal_digit b other] at read
  cases read

theorem naturalUpTo?_digits {base : Nat} (large : 2 ≤ base) (small : base ≤ 16) {n limit : Nat}
    (within : n ≤ limit) : naturalUpTo? base limit (digits base n) = some n := by
  simp [naturalUpTo?, natural?_digits large small, within]

theorem decimal?_decimal {n : Nat} (within : n ≤ 0x7FFFFFFFFFFFFFFF) :
    decimal? (decimal n) = some (n : Int) := by
  have value : naturalUpTo? 10 0x7FFFFFFFFFFFFFFF (decimal n) = some n :=
    naturalUpTo?_digits (by decide) (by decide) within
  have noHyphen : hyphen ∉ decimal n := not_mem_decimal (by decide) n
  have noPlus : plus ∉ decimal n := not_mem_decimal (by decide) n
  have nonempty : decimal n ≠ [] := digits_ne_nil (by decide) n
  -- The value is read from all the digits, and the signs are looked for at the first of them.
  cases written : decimal n with
  | nil => exact absurd written nonempty
  | cons b ds =>
    rw [written] at value noHyphen noPlus
    rw [List.mem_cons, not_or] at noHyphen noPlus
    simp [decimal?, Ne.symm noHyphen.1, Ne.symm noPlus.1, value]

theorem decimal?_signed {z : Int} (lower : -0x8000000000000000 ≤ z)
    (upper : z ≤ 0x7FFFFFFFFFFFFFFF) : decimal? (signed z) = some z := by
  rw [signed]
  split
  next negative =>
    have value : naturalUpTo? 10 0x8000000000000000 (decimal z.natAbs) = some z.natAbs :=
      naturalUpTo?_digits (by decide) (by decide) (by omega)
    simp only [decimal?, if_true, value]
    exact congrArg some (show -(z.natAbs : Int) = z by omega)
  next nonnegative =>
    rw [decimal?_decimal (by omega)]
    exact congrArg some (show (z.natAbs : Int) = z by omega)

theorem isToken_signed (z : Int) : isToken (signed z) := by
  have token : isToken (decimal z.natAbs) := isToken_digits (by decide) (by decide) _
  rw [signed]
  split
  next =>
    have sign : ∀ b ∈ [hyphen], isPlain b := by decide +kernel
    exact isToken_append sign token
  next => exact token

theorem hasHexMark_signed (z : Int) : hasHexMark (signed z) = false := by
  have unmarked : ∀ b ∈ signed z, b ≠ 0x78 ∧ b ≠ 0x58 := by
    intro b member
    have digits : b = hyphen ∨ b ∈ decimal z.natAbs := by
      rw [signed] at member
      split at member
      next => exact List.mem_cons.1 member
      next => exact .inr member
    rcases digits with rfl | digit
    · decide
    · constructor <;> rintro rfl <;> exact not_mem_decimal (by decide) _ digit
  rw [Bool.eq_false_iff]
  intro marked
  simp only [hasHexMark, startsWith, Bool.or_eq_true, List.isPrefixOf_iff_prefix] at marked
  rcases marked with lower | upper
  · exact (unmarked 0x78 (lower.subset (by decide))).1 rfl
  · exact (unmarked 0x58 (upper.subset (by decide))).2 rfl

theorem marked?_signed {z : Int} (lower : -0x8000000000000000 ≤ z)
    (upper : z ≤ 0x7FFFFFFFFFFFFFFF) : marked? (signed z) = some z := by
  rw [marked?, hasHexMark_signed, if_neg (by simp), decimal?_signed lower upper]

theorem signed_natCast (n : Nat) : signed (n : Int) = decimal n := by
  rw [signed, if_neg (by omega), Int.natAbs_natCast]

theorem natural?_zeros (base count : Nat) (large : 2 ≤ base) {ds : Bytes} (nonempty : ds ≠ []) :
    natural? base (List.replicate count zero ++ ds) = natural? base ds := by
  have digit : digitIn? base zero = some 0 := by
    have positive : 0 < base := by omega
    simp [digitIn?, show digitValue? zero = some 0 by decide, positive]
  induction count with
  | zero => rfl
  | succ count ih =>
    rw [← ih, List.replicate_succ, List.cons_append]
    simp only [natural?, reduceCtorEq, if_false, List.append_eq_nil_iff, nonempty, and_false,
      List.mapM_cons, digit]
    cases (List.replicate count zero ++ ds).mapM (digitIn? base) <;> rfl

theorem natural?_hexPadded (width n : Nat) : natural? 16 (hexPadded width n) = some n := by
  have nonempty : hex n ≠ [] := digits_ne_nil (by decide) n
  rw [hexPadded, List.leftpad, natural?_zeros 16 _ (by decide) nonempty]
  exact natural?_digits (by decide) (by decide) n

end StackAsm.Numeral

namespace StackAsm.Instruction

open Numeral

theorem isToken_hexPadded (width n : Nat) : isToken (hexPadded width n) := by
  have padding (count : Nat) : ∀ b ∈ List.replicate count Ascii.zero, isPlain b := by
    intro b member
    rw [List.eq_of_mem_replicate member]
    decide
  exact isToken_append (padding _) (isToken_digits (by decide) (by decide) n)

theorem isToken_hexOperand (width n : Nat) : isToken (hexOperand width n) := by
  have mark : ∀ b ∈ utf8 "0x", isPlain b := by decide +kernel
  exact isToken_append mark (isToken_hexPadded width n)

theorem marked?_hexOperand (width : Nat) {n : Nat} (within : n < 0x8000000000000000) :
    marked? (hexOperand width n) = some (n : Int) := by
  have marked : hasHexMark (hexOperand width n) = true := by
    simp only [hasHexMark, startsWith, Bool.or_eq_true, List.isPrefixOf_iff_prefix]
    exact .inl (List.prefix_append _ _)
  have long : 2 < (hexOperand width n).length := by
    have digits := List.length_pos_iff.2 (ne_nil_of_isToken (isToken_hexPadded width n))
    rw [hexOperand, List.length_append, show (utf8 "0x").length = 2 by decide]
    omega
  have unmarked : (hexOperand width n).drop 2 = hexPadded width n :=
    List.drop_left' (by decide)
  have value : naturalUpTo? 16 0xFFFFFFFFFFFFFFFF (hexPadded width n) = some n := by
    simpa [naturalUpTo?, natural?_hexPadded] using (by omega : n ≤ 0xFFFFFFFFFFFFFFFF)
  simp only [marked?, hex?, hexNatural?, marked, long, decide_true, Bool.and_self, if_true,
    unmarked, value, Option.map_some, UInt64.toInt64_ofNat', Int64.toInt_ofNat_of_lt within]

end StackAsm.Instruction
