import StackAsm.Instruction.Basic
import StackAsm.Source.Literal

set_option autoImplicit false

namespace StackAsm.StringPush

def chunks : Bytes → List Bytes
  | [] => []
  | [a] => [[a]]
  | [a, b] => [[a, b]]
  | a :: b :: c :: bs => [a, b, c] :: chunks bs

def chunkValue (chunk : Bytes) : Nat :=
  chunk.foldr (fun b n => b.toNat + 0x100 * n) 0

def flag : Nat := 0x1000000

def pushes : List Bytes → List Instruction
  | [] => []
  | last :: before =>
    .push (UInt32.ofNat (chunkValue last)) ::
      before.map fun c => .push (UInt32.ofNat (flag + chunkValue c))

def expand (content : Bytes) : List Instruction :=
  pushes (chunks (Literal.unescape content)).reverse

end StackAsm.StringPush
