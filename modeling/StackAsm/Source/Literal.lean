import StackAsm.Bytes
import StackAsm.Text.Ascii

set_option autoImplicit false

namespace StackAsm.Literal

open Ascii

def content? (bs : Bytes) : Option Bytes :=
  if 2 ≤ bs.length ∧ bs.head? = some doubleQuote ∧ bs.getLast? = some doubleQuote then
    some bs.tail.dropLast
  else none

/-- Resolves the escapes. A backslash before any other byte, or at the end, stands for itself. -/
def unescape : Bytes → Bytes
  | [] => []
  | [b] => [b]
  | b :: c :: bs =>
    if b = backslash then
      if c = backslash then backslash :: unescape bs
      else if c = letterN then lineFeed :: unescape bs
      else if c = doubleQuote then doubleQuote :: unescape bs
      else b :: unescape (c :: bs)
    else b :: unescape (c :: bs)

end StackAsm.Literal
