import StackAsm.Assembly.Operand
import StackAsm.Assembly.StringPush
import StackAsm.Source.Line

set_option autoImplicit false

namespace StackAsm

/-- How lines are read: `strict` refuses mnemonics that are not recognised, and `extended`
recognises more of them. -/
structure Mode where
  strict : Bool := false
  extended : Bool := false
  deriving DecidableEq, Repr

namespace Statement

open Operand

-- The limit of `stinput` when none is given: all that its field can hold.
def defaultInputLimit : Int := 0xFFFFFF

-- The spelling that the first operand of `debug` asks for, and the operands after it.
def debugRadix : List Bytes → Radix × List Bytes
  | [] => (.marked, [])
  | o :: os =>
    if lower o = utf8 "hex" then (.hexadecimal, os)
    else if lower o = utf8 "dec" then (.decimal, os)
    else (.marked, o :: os)

def build (m : Mnemonic) (rest : Bytes) (os : List Bytes) : Except LineProblem (List Instruction) :=
  match m with
  | .stpush =>
    match Literal.content? rest with
    | some content => .ok (StringPush.expand content)
    | none => .error (.unquotedString m.name rest)
  | .exit => do
    atMost m 1 os
    return [.exit (UInt32.ofInt (← optional m .decimal 0 os[0]?))]
  | .dup => do
    atMost m 1 os
    return [.dup (Int32.ofInt (← optional m .decimal 0 os[0]?))]
  | .swap => do
    atMost m 2 os
    let source ← optional m .decimal 4 os[0]?
    let target ← optional m .decimal 0 os[1]?
    return [.swap (Int32.ofInt source) (Int32.ofInt target)]
  | .stinput => do
    atMost m 1 os
    return [.stinput (UInt32.ofInt (← optional m .marked defaultInputLimit os[0]?))]
  | .debug => do
    atMost m 2 os
    let (radix, left) := debugRadix os
    atMost m 1 left
    return [.debug (UInt32.ofInt (← optional m radix 0 left[0]?))]
  | .pop => do
    atMost m 1 os
    return [.pop (UInt32.ofInt (← optional m .marked 0 os[0]?))]
  | .ret => do
    atMost m 1 os
    return [.ret (UInt32.ofInt (← optional m .marked 0 os[0]?))]
  | .push => do
    atMost m 1 os
    return [.push (UInt32.ofInt (← required m .marked os[0]?))]
  | .print => do
    atMost m 2 os
    let offset ← optional m .marked 0 os[0]?
    return [.print (Int32.ofInt offset) (← format m os[1]?)]
  | .stprint => do
    atMost m 2 os
    let offset ← optional m .marked 0 os[0]?
    return [.stprint (Int32.ofInt offset) (← format m os[1]?)]
  | .nop => do
    atMost m 0 os
    return [.nop]
  | .input => do
    atMost m 0 os
    return [.input]
  | .dump => do
    atMost m 0 os
    return [.dump]
  | .arithmetic operator => do
    atMost m 0 os
    return [.binary operator]
  | .unary operator => do
    atMost m 0 os
    return [.unary operator]

def recognised? (mode : Mode) (text : Bytes) : Option Mnemonic :=
  Mnemonic.find? mode.extended (Line.mnemonic text)

def refusal (text : Bytes) : LineProblem :=
  if Mnemonic.isBranch (Line.mnemonic text) then .unresolvedBranch (Line.mnemonic text)
  else .unknownMnemonic (Line.head text)

/-- What an instruction line yields. One that is not recognised yields the zero word, unless the
assembly is strict. -/
def emit (mode : Mode) (text : Bytes) : Except LineProblem (List Instruction) :=
  match recognised? mode text with
  | some m => build m (Line.rest text) (Line.operands text)
  | none => if mode.strict then .error (refusal text) else .ok [.unknown 0]

end Statement

end StackAsm
