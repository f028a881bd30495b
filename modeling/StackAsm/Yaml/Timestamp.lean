import StackAsm.Yaml.Number

set_option autoImplicit false

namespace StackAsm.Yaml.Timestamp

open Ascii

def daysInMonth (year month : Nat) : Nat :=
  if month = 2 then
    if year % 4 = 0 ∧ (year % 100 ≠ 0 ∨ year % 400 = 0) then 29 else 28
  else if month = 4 ∨ month = 6 ∨ month = 9 ∨ month = 11 then 30
  else 31

def field? (least : Nat) (bs : Bytes) : Option (Nat × Bytes) :=
  let digits := (bs.take 2).takeWhile isDigit
  if digits.length < least then none
  else (Numeral.natural? 10 digits).map fun n => (n, bs.drop digits.length)

def after? (b : UInt8) (bs : Bytes) : Option Bytes :=
  if bs.head? = some b then some bs.tail else none

def afterDate? (bs : Bytes) : Option Bytes := do
  let digits := bs.takeWhile isDigit
  let year ← Numeral.natural? 10 digits
  let (month, bs) ← field? 1 (← after? hyphen (bs.drop digits.length))
  let (day, bs) ← field? 1 (← after? hyphen bs)
  if digits.length = 4 ∧ 1 ≤ month ∧ month ≤ 12 ∧ 1 ≤ day ∧ day ≤ daysInMonth year month then
    some bs
  else none

def afterFraction (bs : Bytes) : Bytes :=
  match bs with
  | mark :: digit :: rest =>
    if (mark = point ∨ mark = comma) ∧ isDigit digit then rest.dropWhile isDigit else bs
  | _ => bs

def afterClock? (bs : Bytes) : Option Bytes := do
  let (hour, bs) ← field? 1 bs
  let (minute, bs) ← field? 1 (← after? colon bs)
  let (second, bs) ← field? 1 (← after? colon bs)
  if hour < 24 ∧ minute < 60 ∧ second < 60 then some (afterFraction bs) else none

-- An offset from universal time, which can be a whole day.
def isOffset (bs : Bytes) : Bool :=
  match bs with
  | [] => false
  | b :: rest =>
    if b = 0x5A then rest = []
    else
      Number.isSign b &&
        match (do
          let (hours, bs) ← field? 2 rest
          let (minutes, bs) ← field? 2 (← after? colon bs)
          return (hours, minutes, bs) : Option (Nat × Nat × Bytes)) with
        | some (hours, minutes, bs) => hours ≤ 24 && minutes ≤ 60 && bs = []
        | none => false

-- After the letter T a time has an offset, and after blanks it has none.
def isTimestamp (value : Bytes) : Bool :=
  match afterDate? value with
  | none => false
  | some [] => true
  | some (b :: bs) =>
    if b = 0x54 ∨ b = 0x74 then ((afterClock? bs).map isOffset).getD false
    else if b = space then afterClock? (bs.dropWhile (· == space)) = some []
    else false

end StackAsm.Yaml.Timestamp
