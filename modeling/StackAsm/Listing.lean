import StackAsm.Instruction.Printer
import StackAsm.Instruction.Word
import StackAsm.Output.Sink

set_option autoImplicit false

namespace StackAsm.Listing

structure OutOfRange where
  index : Int
  length : Nat
  deriving DecidableEq, Repr

def OutOfRange.message (e : OutOfRange) : Bytes :=
  utf8 "runtime error: index out of range [" ++ Numeral.signed e.index ++ utf8 "]" ++
    if e.index < 0 then [] else utf8 " with length " ++ Numeral.decimal e.length

def instructionText (w : UInt32) : Bytes :=
  (Instruction.decode w).text

def entry (ws : List UInt32) (index : Int) : Except OutOfRange Bytes :=
  if index < 0 then .error ⟨index, ws.length⟩
  else
    match ws[index.toNat]? with
    | some w => .ok (instructionText w)
    | none => .error ⟨index, ws.length⟩

-- The offset after a space, to at least eight columns, and the word.
def address (offset : Nat) (w : UInt32) : Bytes :=
  (Ascii.space :: Numeral.decimal offset).leftpad 8 Ascii.space ++ utf8 "\t" ++
    Numeral.hexPadded 8 w.toNat ++ utf8 "\t"

def lineParts (offset : Nat) (w : UInt32) : List Bytes :=
  [address offset w, instructionText w, utf8 "\n"]

def partsFrom (offset : Nat) : List UInt32 → List Bytes
  | [] => []
  | w :: ws => lineParts offset w ++ partsFrom (offset + 4) ws

def parts (ws : List UInt32) : List Bytes :=
  partsFrom 0 ws

def text (ws : List UInt32) : Bytes :=
  (parts ws).flatten

variable {σ : Type}

def writeEntry (sink : Sink σ) (state : σ) (entry : Bytes) : Option Failure × σ :=
  let done := ((Checked.mk state 0 none).write sink entry).2
  (done.failure, done.state)

def write (sink : Sink σ) (state : σ) (ws : List UInt32) : Option Failure × σ :=
  let done := Checked.writeAll sink { state := state } (parts ws)
  (done.failure, done.state)

end StackAsm.Listing
