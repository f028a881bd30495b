import StackAsm.Bytes
import StackAsm.Text.Ascii

set_option autoImplicit false

namespace StackAsm.Numeral

def digits (base n : Nat) : Bytes :=
  (Nat.toDigits base n).map Char.toUInt8

def decimal (n : Nat) : Bytes :=
  digits 10 n

def signed (z : Int) : Bytes :=
  if z < 0 then Ascii.hyphen :: decimal z.natAbs else decimal z.natAbs

def hex (n : Nat) : Bytes :=
  digits 16 n

def hexPadded (width n : Nat) : Bytes :=
  (hex n).leftpad width Ascii.zero

-- A signed hexadecimal numeral; the sign takes part of the width.
def signedHexPadded (width : Nat) (z : Int) : Bytes :=
  if z < 0 then Ascii.hyphen :: hexPadded (width - 1) z.natAbs else hexPadded width z.natAbs

def digitValue? (b : UInt8) : Option Nat :=
  if 0x30 ≤ b ∧ b ≤ 0x39 then some (b.toNat - 0x30)
  else if 0x61 ≤ b ∧ b ≤ 0x66 then some (b.toNat - 0x57)
  else if 0x41 ≤ b ∧ b ≤ 0x46 then some (b.toNat - 0x37)
  else none

def digitIn? (base : Nat) (b : UInt8) : Option Nat :=
  (digitValue? b).filter (· < base)

def natural? (base : Nat) (bs : Bytes) : Option Nat :=
  if bs = [] then none
  else (bs.mapM (digitIn? base)).map fun ds => ds.foldl (fun n d => base * n + d) 0

theorem digitValue?_digitChar : ∀ d < 16, digitValue? (Nat.digitChar d).toUInt8 = some d := by
  decide

theorem digitIn?_digitChar {base d : Nat} (small : base ≤ 16) (h : d < base) :
    digitIn? base (Nat.digitChar d).toUInt8 = some d := by
  simp [digitIn?, digitValue?_digitChar d (by omega), h]

theorem natural?_concat {base n d : Nat} {bs : Bytes} {b : UInt8} (h : natural? base bs = some n)
    (digit : digitIn? base b = some d) : natural? base (bs ++ [b]) = some (base * n + d) := by
  by_cases empty : bs = []
  · simp [natural?, empty] at h
  · simp only [natural?, empty, if_false, Option.map_eq_some_iff] at h
    obtain ⟨ds, read, value⟩ := h
    simp [natural?, List.mapM_append, read, digit, value]

theorem natural?_digits {base : Nat} (large : 2 ≤ base) (small : base ≤ 16) (n : Nat) :
    natural? base (digits base n) = some n := by
  induction n using Nat.strongRecOn with
  | _ n ih =>
    by_cases h : n < base
    · rw [digits, Nat.toDigits_of_lt_base h]
      simp [natural?, digitIn?_digitChar small h]
    · have smaller : n / base < n := Nat.div_lt_self (by omega) (by omega)
      have digit : n % base < base := Nat.mod_lt _ (by omega)
      rw [digits, Nat.toDigits_of_base_le (by omega) (by omega), List.map_append]
      have step := natural?_concat (ih _ smaller) (digitIn?_digitChar small digit)
      rw [Nat.div_add_mod] at step
      exact step

def naturalUpTo? (base limit : Nat) (bs : Bytes) : Option Nat :=
  (natural? base bs).filter (· ≤ limit)

def decimal? (bs : Bytes) : Option Int :=
  match bs with
  | [] => none
  | b :: ds =>
    if b = Ascii.hyphen then (naturalUpTo? 10 0x8000000000000000 ds).map fun n => -(n : Int)
    else if b = Ascii.plus then (naturalUpTo? 10 0x7FFFFFFFFFFFFFFF ds).map Int.ofNat
    else (naturalUpTo? 10 0x7FFFFFFFFFFFFFFF bs).map Int.ofNat

def hasHexMark (bs : Bytes) : Bool :=
  startsWith bs (utf8 "0x") || startsWith bs (utf8 "0X")

/-- Hexadecimal digits that fit 64 bits, after an optional mark. The mark alone is no numeral. -/
def hexNatural? (bs : Bytes) : Option Nat :=
  let ds := if 2 < bs.length && hasHexMark bs then bs.drop 2 else bs
  naturalUpTo? 16 0xFFFFFFFFFFFFFFFF ds

-- The 64 bits of a hexadecimal numeral, read with a sign.
def hex? (bs : Bytes) : Option Int :=
  (hexNatural? bs).map fun n => (UInt64.ofNat n).toInt64.toInt

def marked? (bs : Bytes) : Option Int :=
  if hasHexMark bs then hex? bs else decimal? bs

end StackAsm.Numeral
