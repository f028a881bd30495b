import StackAsm.Input
import StackAsm.Instruction.Word
import StackAsm.Output.Sink

set_option autoImplicit false

namespace StackAsm.Image

def magic : Bytes := [0xDE, 0xAD, 0xBE, 0xEF]

def pad (is : List Instruction) : List Instruction :=
  is ++ List.replicate ((4 - is.length % 4) % 4) .nop

def words (is : List Instruction) : List UInt32 :=
  (pad is).map Instruction.encode

def bytesOfWords (ws : List UInt32) : Bytes :=
  magic ++ ws.flatMap wordBytes

def bytes (is : List Instruction) : Bytes :=
  bytesOfWords (words is)

variable {σ : Type}

structure Written where
  count : Nat
  failure : Option Failure
  deriving DecidableEq, Repr

/-- Writes the image of a program, the magic bytes and each word in a call of their own. -/
def write (sink : Sink σ) (state : σ) (is : List Instruction) : Written × σ :=
  if is = [] then (⟨0, some (.ofCause .emptyProgram)⟩, state)
  else
    let done := Checked.writeAll sink { state := state } (magic :: (words is).map wordBytes)
    match done.failure with
    | some f => (⟨0, some f⟩, done.state)
    | none => (⟨(words is).length, none⟩, done.state)

def readWords (failure : Option Cause) (offset : Nat) : Bytes → Except Failure (List UInt32)
  | b0 :: b1 :: b2 :: b3 :: bs =>
    (readWords failure (offset + 4) bs).map (wordOfBytes b0 b1 b2 b3 :: ·)
  | left =>
    match failure, left with
    | none, [] => .ok []
    | none, _ | some .unexpectedEnd, _ => .error (.ofCause (.truncatedWord offset))
    | some cause, _ => .error ⟨[.wordReadFailed], cause⟩

theorem readWords_wordBytes (failure : Option Cause) (offset : Nat) (w : UInt32) (bs : Bytes) :
    readWords failure offset (wordBytes w ++ bs) =
      (readWords failure (offset + 4) bs).map (w :: ·) := by
  have whole := wordOfBytes_wordBytes w
  simp only [wordBytes, List.cons_append, List.nil_append, readWords, whole]

theorem readWords_flatMap_wordBytes (offset : Nat) (ws : List UInt32) :
    readWords none offset (ws.flatMap wordBytes) = .ok ws := by
  induction ws generalizing offset with
  | nil => rfl
  | cons w ws ih => rw [List.flatMap_cons, readWords_wordBytes, ih, Except.map]

def read (input : Input) : Except Failure (List UInt32) :=
  if input.data.length < 4 then
    match input.failure with
    | none | some .unexpectedEnd => .error ⟨[.shortImage], .badMagic⟩
    | some cause => .error ⟨[.headerReadFailed], cause⟩
  else if input.data.take 4 ≠ magic then
    .error ⟨[.foundHeader (input.data.take 4)], .badMagic⟩
  else readWords input.failure 4 (input.data.drop 4)

end StackAsm.Image
