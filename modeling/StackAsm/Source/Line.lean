import StackAsm.Source.Literal
import StackAsm.Text.Blank
import StackAsm.Text.LowerCase

set_option autoImplicit false

namespace StackAsm

open Ascii Literal

inductive Line where
  | blank
  | label (name : Bytes)
  | instruction (text : Bytes)
  deriving DecidableEq, Repr

namespace Line

/-- The line up to its comment; `quoted` tells whether it starts inside a string literal. -/
def code (quoted : Bool) : Bytes → Bytes
  | [] => []
  | [b] => if b = numberSign ∧ quoted = false then [] else [b]
  | b :: c :: bs =>
    if b = backslash ∧ quoted = true then b :: c :: code quoted bs
    else if b = doubleQuote then b :: code (!quoted) (c :: bs)
    else if b = numberSign ∧ quoted = false then []
    else b :: code quoted (c :: bs)

def ofText (text : Bytes) : Line :=
  if text = [] then .blank
  else if text.getLast? = some colon then .label (trim text.dropLast)
  else .instruction text

def classify (raw : Bytes) : Line :=
  ofText (trim (code false raw))

def head (text : Bytes) : Bytes :=
  (tokens text).headD []

def mnemonic (text : Bytes) : Bytes :=
  lower (head text)

def operands (text : Bytes) : List Bytes :=
  (tokens text).tail

def rest (text : Bytes) : Bytes :=
  trim (text.drop (head text).length)

/-- How many instructions a line is taken to hold when labels are placed. Bytes of a string are
counted as written, before escapes are resolved. -/
def count : Line → Nat
  | .blank | .label _ => 0
  | .instruction text =>
    if mnemonic text = utf8 "stpush" then
      (((content? (rest text)).getD (rest text)).length + 2) / 3
    else 1

end Line

/-- The bytes of each line, without the line feed and one carriage return before it. What follows
the last line feed is a line unless it is empty. A line can have any length: that a reader gives up
at a line of `2 ^ 31 - 1` bytes is left out. -/
def sourceLines (data : Bytes) : List Bytes :=
  let parts := data.splitOn lineFeed
  let full := if parts.getLast? = some [] then parts.dropLast else parts
  full.map fun l => if l.getLast? = some carriageReturn then l.dropLast else l

end StackAsm
