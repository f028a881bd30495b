import StackAsm.Text.Numeral

set_option autoImplicit false

namespace StackAsm.Yaml

open Ascii

def isDigit (b : UInt8) : Bool :=
  0x30 ≤ b && b ≤ 0x39

namespace Number

def isSign (b : UInt8) : Bool :=
  b == hyphen || b == plus

def unsigned (value : Bytes) : Bytes :=
  match value with
  | b :: bs => if isSign b then bs else value
  | [] => []

-- The value of digits after a mark that tells their base; a leading zero tells base eight.
def magnitude? (digits : Bytes) : Option Nat :=
  match digits with
  | b :: mark :: ds =>
    if b ≠ zero then Numeral.natural? 10 digits
    else if mark = 0x78 ∨ mark = 0x58 then Numeral.natural? 16 ds
    else if mark = 0x62 ∨ mark = 0x42 then Numeral.natural? 2 ds
    else if mark = 0x6F ∨ mark = 0x4F then Numeral.natural? 8 ds
    else Numeral.natural? 8 (mark :: ds)
  | _ => Numeral.natural? 10 digits

def fitsSigned (value : Bytes) (magnitude : Nat) : Bool :=
  if value.head? == some hyphen then magnitude ≤ 0x8000000000000000
  else magnitude < 0x8000000000000000

-- A sign can also stand between the mark of base two or eight and the digits.
def isSignedAfterMark (value : Bytes) : Bool :=
  let base? :=
    if startsWith value (utf8 "0b") then some 2
    else if startsWith value (utf8 "0o") then some 8
    else none
  let digits := value.drop 2
  match base? with
  | none => false
  | some base => ((Numeral.natural? base (unsigned digits)).map (fitsSigned digits)).getD false

def isSignedInteger (value : Bytes) : Bool :=
  ((magnitude? (unsigned value)).map (fitsSigned value)).getD false || isSignedAfterMark value

def isInteger (value : Bytes) : Bool :=
  isSignedInteger value ||
    match magnitude? value with
    | none => false
    | some n => n < 0x10000000000000000

structure Decimal where
  whole : Bytes
  fraction : Bytes
  negativeExponent : Bool
  exponent : Nat
  deriving DecidableEq, Repr

def exponent? (bs : Bytes) : Option (Bool × Nat) :=
  match bs with
  | [] => some (false, 0)
  | mark :: ds =>
    if mark = 0x65 ∨ mark = 0x45 then
      (Numeral.natural? 10 (unsigned ds)).map fun n => (ds.head? == some hyphen, n)
    else none

def decimal? (value : Bytes) : Option Decimal :=
  let body := unsigned value
  let whole := body.takeWhile isDigit
  let rest := body.dropWhile isDigit
  let (fraction, rest) :=
    match rest with
    | b :: bs => if b = point then (bs.takeWhile isDigit, bs.dropWhile isDigit) else ([], rest)
    | [] => ([], [])
  if whole = [] ∧ fraction = [] then none
  else (exponent? rest).map fun (negative, n) => ⟨whole, fraction, negative, n⟩

-- The least number that is too large for a 64-bit float.
def floatLimit : Nat :=
  Nat.pow 2 1024 - Nat.pow 2 970

/-- Whether a number is too large for a 64-bit float. Powers of ten are only compared where the
number of digits does not tell. -/
def Decimal.overflows (d : Decimal) : Bool :=
  let digits := (d.whole ++ d.fraction).dropWhile (· == zero)
  let up := if d.negativeExponent then 0 else d.exponent
  let down := d.fraction.length + if d.negativeExponent then d.exponent else 0
  if digits = [] then false
  else if 310 + down < digits.length + up then true
  else if digits.length + up < 300 + down then false
  else
    floatLimit * Nat.pow 10 (down - up) ≤
      (Numeral.natural? 10 digits).getD 0 * Nat.pow 10 (up - down)

def isFloat (value : Bytes) : Bool :=
  ((decimal? value).map (!·.overflows)).getD false

def isSeparated (afterDigit : Bool) : Bytes → Bool
  | [] => true
  | b :: bs =>
    if b = underscore then afterDigit && (bs.head?.map isDigit).getD false && isSeparated false bs
    else isSeparated (isDigit b) bs

end Number

end StackAsm.Yaml
