import StackAsm.Text.Numeral
import StackAsm.Text.Printable

set_option autoImplicit false

namespace StackAsm

namespace Quoted

open Utf8

def letter? (c : Char) : Option Char :=
  [('\x07', 'a'), ('\x08', 'b'), ('\x0c', 'f'), ('\n', 'n'), ('\r', 'r'), ('\t', 't'),
    ('\x0b', 'v')].lookup c

def escapeChar (c : Char) : Bytes :=
  if c = '"' || c = '\\' then utf8 "\\" ++ String.utf8EncodeChar c
  else if isPrintable c then String.utf8EncodeChar c
  else
    match letter? c with
    | some l => utf8 "\\" ++ String.utf8EncodeChar l
    | none =>
      if c.toNat < 0x20 || c.toNat = 0x7F then utf8 "\\x" ++ Numeral.hexPadded 2 c.toNat
      else if c.toNat < 0x10000 then utf8 "\\u" ++ Numeral.hexPadded 4 c.toNat
      else utf8 "\\U" ++ Numeral.hexPadded 8 c.toNat

def escapePiece : Piece → Bytes
  | .char c => escapeChar c
  | .stray b => utf8 "\\x" ++ Numeral.hexPadded 2 b.toNat

end Quoted

def quote (bs : Bytes) : Bytes :=
  utf8 "\"" ++ (Utf8.pieces bs).flatMap Quoted.escapePiece ++ utf8 "\""

end StackAsm
