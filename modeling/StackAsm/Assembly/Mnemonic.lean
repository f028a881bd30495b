import StackAsm.Instruction.Name

set_option autoImplicit false

namespace StackAsm

inductive Mnemonic where
  | stpush
  | dup
  | exit
  | swap
  | nop
  | input
  | stinput
  | debug
  | pop
  | push
  | print
  | stprint
  | dump
  | ret
  | arithmetic (operator : UInt8)
  | unary (operator : UInt8)
  deriving DecidableEq, Repr

namespace Mnemonic

def name : Mnemonic → Bytes
  | .stpush => utf8 "stpush"
  | .dup => utf8 "dup"
  | .exit => utf8 "exit"
  | .swap => utf8 "swap"
  | .nop => utf8 "nop"
  | .input => utf8 "input"
  | .stinput => utf8 "stinput"
  | .debug => utf8 "debug"
  | .pop => utf8 "pop"
  | .push => utf8 "push"
  | .print => utf8 "print"
  | .stprint => utf8 "stprint"
  | .dump => utf8 "dump"
  | .ret => utf8 "return"
  | .arithmetic operator => NameTable.arithmetic.name operator
  | .unary operator => NameTable.unary.name operator

def base : List Mnemonic :=
  [.stpush, .dup, .exit, .swap, .nop, .input, .stinput, .debug]

def extendedOnly : List Mnemonic :=
  [.pop, .push, .print, .stprint, .dump, .ret]

def findIn (ms : List Mnemonic) (name : Bytes) : Option Mnemonic :=
  ms.find? fun m => m.name == name

def find? (extended : Bool) (name : Bytes) : Option Mnemonic :=
  match findIn base name with
  | some m => some m
  | none =>
    if extended then
      (findIn extendedOnly name).or
        (((NameTable.arithmetic.find? name).map .arithmetic).or
          ((NameTable.unary.find? name).map .unary))
    else none

-- Branches jump to offsets, which are not resolved.
def isBranch (name : Bytes) : Bool :=
  name == utf8 "call" || name == utf8 "goto" || (NameTable.comparison.find? name).isSome ||
    (NameTable.zeroTest.find? name).isSome

end Mnemonic

end StackAsm
