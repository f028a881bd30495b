import StackAsm.Instruction.Basic

set_option autoImplicit false

namespace StackAsm.Instruction

def residue (size : Nat) (offset : Int32) : Nat :=
  (offset.toInt % size).toNat

def wordResidue (size : Nat) (offset : Int32) : Nat :=
  (offset.toInt / 4 % size).toNat

def ofResidue (size n : Nat) : Int32 :=
  Int32.ofInt (Int.bmod n size)

def encodeNat : Instruction → Nat
  | .exit code => 0x01000000 + code.toNat % 0x1000000
  | .swap source target =>
    0x02000000 + wordResidue 0x1000 source * 0x1000 + wordResidue 0x1000 target
  | .nop => 0x04000000
  | .input => 0x05000000
  | .debug value => 0x0D000000 + value.toNat % 0x1000000
  | .stinput limit => 0x0F000000 + limit.toNat % 0x1000000
  | .pop offset => 0x10000000 + offset.toNat % 0x10000000
  | .binary operator => 0x20000000 + operator.toNat % 16 * 0x1000000
  | .unary operator => 0x30000000 + operator.toNat % 16 * 0x1000000
  | .stprint offset format => 0x40000000 + wordResidue 0x1000 offset * 0x10 + format.toNat % 4
  | .call offset => 0x50000000 + residue 0x10000000 offset
  | .ret offset => 0x60000000 + offset.toNat % 0x10000000
  | .goto offset => 0x70000000 + residue 0x10000000 offset
  | .binaryIf condition offset =>
    0x80000000 + condition.toNat % 8 * 0x2000000 + residue 0x2000000 offset
  | .unaryIf condition offset =>
    0x90000000 + condition.toNat % 4 * 0x4000000 + residue 0x4000000 offset
  | .dup offset => 0xC0000000 + wordResidue 0x10000000 offset
  | .print offset format => 0xD0000000 + wordResidue 0x1000 offset * 4 + format.toNat % 4
  | .dump => 0xE0000000
  | .push value => 0xF0000000 + value.toNat % 0x10000000
  | .unknown word => word.toNat

def encode (i : Instruction) : UInt32 :=
  UInt32.ofNat i.encodeNat

def decodeMisc (word : UInt32) : Instruction :=
  let low := word.toNat % 0x1000000
  match word.toNat / 0x1000000 % 16 with
  | 0x1 => .exit (UInt32.ofNat low)
  | 0x2 => .swap (Int32.ofNat (4 * (low / 0x1000))) (Int32.ofNat (4 * (low % 0x1000)))
  | 0x4 => if low = 0 then .nop else .unknown word
  | 0x5 => if low = 0 then .input else .unknown word
  | 0xD => .debug (UInt32.ofNat low)
  | 0xF => .stinput (UInt32.ofNat low)
  | _ => .unknown word

def decodeBinary (word : UInt32) : Instruction :=
  let operator := word.toNat / 0x1000000 % 16
  if word.toNat % 0x1000000 = 0 ∧ 1 ≤ operator ∧ operator ≤ 11 then .binary (UInt8.ofNat operator)
  else .unknown word

def decodeUnary (word : UInt32) : Instruction :=
  let operator := word.toNat / 0x1000000 % 16
  if word.toNat % 0x1000000 = 0 ∧ operator ≤ 1 then .unary (UInt8.ofNat operator)
  else .unknown word

/-- The instruction of a word. The unused bits of `stprint` and `print` are not looked at; a word
with other unused bits set is unknown. -/
def decode (word : UInt32) : Instruction :=
  let n := word.toNat
  let low := n % 0x10000000
  match n / 0x10000000 with
  | 0x0 => decodeMisc word
  | 0x1 => .pop (UInt32.ofNat low)
  | 0x2 => decodeBinary word
  | 0x3 => decodeUnary word
  | 0x4 => .stprint (Int32.ofNat (4 * (n / 0x10 % 0x1000))) (UInt8.ofNat (n % 4))
  | 0x5 => .call (ofResidue 0x10000000 low)
  | 0x6 => .ret (UInt32.ofNat low)
  | 0x7 => .goto (ofResidue 0x10000000 low)
  | 0x8 => .binaryIf (UInt8.ofNat (n / 0x2000000 % 8)) (ofResidue 0x2000000 (n % 0x2000000))
  | 0x9 => .unaryIf (UInt8.ofNat (n / 0x4000000 % 4)) (ofResidue 0x4000000 (n % 0x4000000))
  | 0xC => .dup (Int32.ofNat (4 * low))
  | 0xD => .print (Int32.ofNat (4 * (n / 4 % 0x1000))) (UInt8.ofNat (n % 4))
  | 0xE => if low = 0 then .dump else .unknown word
  | 0xF => .push (UInt32.ofNat low)
  | _ => .unknown word

end StackAsm.Instruction
