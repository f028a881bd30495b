import StackAsm.Instruction.Basic
import StackAsm.Instruction.Name
import StackAsm.Text.Numeral

set_option autoImplicit false

namespace StackAsm.Instruction

open Numeral

def hexOperand (width : Nat) (n : Nat) : Bytes :=
  utf8 "0x" ++ hexPadded width n

def text : Instruction → Bytes
  | .exit code => utf8 "exit " ++ decimal code.toNat
  | .swap source target => utf8 "swap " ++ signed source.toInt ++ utf8 " " ++ signed target.toInt
  | .nop => utf8 "nop"
  | .input => utf8 "input"
  | .debug value => utf8 "debug " ++ hexOperand 1 value.toNat
  | .stinput limit => utf8 "stinput " ++ hexOperand 1 limit.toNat
  | .pop offset => utf8 "pop " ++ decimal offset.toNat
  | .binary operator => NameTable.arithmetic.name operator
  | .unary operator => NameTable.unary.name operator
  | .stprint offset format =>
    utf8 "stprint " ++ signed offset.toInt ++ utf8 " " ++ NameTable.format.name format
  | .call offset => utf8 "call " ++ signed offset.toInt
  | .ret offset => utf8 "return " ++ decimal offset.toNat
  | .goto offset => utf8 "goto " ++ signed offset.toInt
  | .binaryIf condition offset =>
    NameTable.comparison.name condition ++ utf8 " " ++ signed offset.toInt
  | .unaryIf condition offset =>
    NameTable.zeroTest.name condition ++ utf8 " " ++ signed offset.toInt
  | .dup offset => utf8 "dup " ++ signed offset.toInt
  | .print offset format =>
    utf8 "print " ++ signed offset.toInt ++ utf8 " " ++ NameTable.format.name format
  | .dump => utf8 "dump"
  | .push value => utf8 "push " ++ hexOperand 7 value.toNat
  | .unknown word => utf8 ".word " ++ hexOperand 8 word.toNat

end StackAsm.Instruction
