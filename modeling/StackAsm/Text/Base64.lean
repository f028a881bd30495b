import StackAsm.Bytes
import StackAsm.Text.Ascii

set_option autoImplicit false

namespace StackAsm.Base64

def sextet? (b : UInt8) : Option Nat :=
  if 0x41 ≤ b ∧ b ≤ 0x5A then some (b.toNat - 0x41)
  else if 0x61 ≤ b ∧ b ≤ 0x7A then some (b.toNat - 0x61 + 26)
  else if 0x30 ≤ b ∧ b ≤ 0x39 then some (b.toNat - 0x30 + 52)
  else if b = Ascii.plus then some 62
  else if b = Ascii.slash then some 63
  else none

def triple? (a b c d : UInt8) : Option Bytes := do
  let n := (((← sextet? a) * 64 + (← sextet? b)) * 64 + (← sextet? c)) * 64 + (← sextet? d)
  return [UInt8.ofNat (n / 0x10000), UInt8.ofNat (n / 0x100), UInt8.ofNat n]

-- Decodes characters without line breaks. Padding counts as bits that are dropped, so those before
-- it need not be zero.
def decodeGroups? : Bytes → Option Bytes
  | [] => some []
  | [a, b, c, d] =>
    if d ≠ Ascii.equals then triple? a b c d
    else if c ≠ Ascii.equals then (triple? a b c 0x41).map (·.take 2)
    else (triple? a b 0x41 0x41).map (·.take 1)
  | a :: b :: c :: d :: bs => do
    return (← triple? a b c d) ++ (← decodeGroups? bs)
  | _ => none

def decode? (text : Bytes) : Option Bytes :=
  decodeGroups? (text.filter fun b => b ≠ Ascii.lineFeed ∧ b ≠ Ascii.carriageReturn)

end StackAsm.Base64
