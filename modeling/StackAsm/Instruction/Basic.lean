set_option autoImplicit false

/-!
The instructions of a stack machine with 32-bit words. Operands have the width of the registers they
travel in, which is more than an instruction word can hold: the word keeps the low part of each.
Offsets are in bytes.
-/

namespace StackAsm

inductive Instruction where
  | exit (code : UInt32)
  | swap (source target : Int32)
  | nop
  | input
  | debug (value : UInt32)
  | stinput (limit : UInt32)
  | pop (offset : UInt32)
  | binary (operator : UInt8)
  | unary (operator : UInt8)
  | stprint (offset : Int32) (format : UInt8)
  | call (offset : Int32)
  | ret (offset : UInt32)
  | goto (offset : Int32)
  | binaryIf (condition : UInt8) (offset : Int32)
  | unaryIf (condition : UInt8) (offset : Int32)
  | dup (offset : Int32)
  | print (offset : Int32) (format : UInt8)
  | dump
  | push (value : UInt32)
  | unknown (word : UInt32)
  deriving DecidableEq, Repr

namespace Instruction

-- The instruction in a slot of a stream; an empty slot counts as the zero word.
def ofSlot (slot : Option Instruction) : Instruction :=
  slot.getD (.unknown 0)

def opcode : Instruction → Nat
  | .exit _ | .swap _ _ | .nop | .input | .debug _ | .stinput _ => 0x0
  | .pop _ => 0x1
  | .binary _ => 0x2
  | .unary _ => 0x3
  | .stprint _ _ => 0x4
  | .call _ => 0x5
  | .ret _ => 0x6
  | .goto _ => 0x7
  | .binaryIf _ _ => 0x8
  | .unaryIf _ _ => 0x9
  | .dup _ => 0xC
  | .print _ _ => 0xD
  | .dump => 0xE
  | .push _ => 0xF
  | .unknown word => word.toNat / 0x10000000

end Instruction

end StackAsm
