import StackAsm.Assembly.Mnemonic
import StackAsm.Failure
import StackAsm.Text.LowerCase

set_option autoImplicit false

namespace StackAsm.Operand

inductive Radix where
  | decimal
  | hexadecimal
  -- Hexadecimal after a mark, decimal otherwise.
  | marked
  deriving DecidableEq, Repr

def Radix.value? : Radix → Bytes → Option Int
  | .decimal, token => Numeral.decimal? token
  | .hexadecimal, token => Numeral.hex? token
  | .marked, token => Numeral.marked? token

def Radix.problem (m : Mnemonic) : Radix → Bytes → LineProblem
  | .decimal, token => .invalidNumber m.name token
  | .hexadecimal, token => .invalidHexadecimal m.name token
  | .marked, token =>
    if Numeral.hasHexMark token then .invalidHexadecimal m.name token
    else .invalidNumber m.name token

def number (m : Mnemonic) (r : Radix) (token : Bytes) : Except LineProblem Int :=
  match r.value? token with
  | some v => .ok v
  | none => .error (r.problem m token)

def optional (m : Mnemonic) (r : Radix) (absent : Int) : Option Bytes → Except LineProblem Int
  | none => .ok absent
  | some token => number m r token

def required (m : Mnemonic) (r : Radix) : Option Bytes → Except LineProblem Int
  | none => .error (.missingOperand m.name)
  | some token => number m r token

def format? (token : Bytes) : Option UInt8 :=
  (NameTable.format.find? (lower token)).or
    ((Numeral.naturalUpTo? 10 3 token).map UInt8.ofNat)

def format (m : Mnemonic) : Option Bytes → Except LineProblem UInt8
  | none => .ok 0
  | some token =>
    match format? token with
    | some f => .ok f
    | none => .error (.invalidFormat m.name token)

def atMost (m : Mnemonic) (limit : Nat) (operands : List Bytes) : Except LineProblem Unit :=
  if limit < operands.length then .error (.tooManyOperands m.name) else .ok ()

end StackAsm.Operand
