import StackAsm.Assembly.Label
import StackAsm.Text.Blank

set_option autoImplicit false

namespace StackAsm

inductive Level where
  | debug
  | warn
  deriving DecidableEq, Repr

def Level.name : Level → Bytes
  | .debug => utf8 "DEBUG"
  | .warn => utf8 "WARN"

inductive Record where
  | duplicateLabel (warning : Warning)
  | labelsResolved (file : Bytes) (count size : Nat)
  | zeroWord (file : Bytes) (line : Nat) (mnemonic : Bytes)
  | imageSaved (file : Bytes) (instructions padding : Nat)
  deriving DecidableEq, Repr

namespace Record

open Utf8

def level : Record → Level
  | .duplicateLabel _ => .warn
  | _ => .debug

def message : Record → Bytes
  | .duplicateLabel w => w.message
  | .labelsResolved _ _ _ => utf8 "labels resolved"
  | .zeroWord _ _ _ => utf8 "unrecognized mnemonic assembled as 0"
  | .imageSaved _ _ _ => utf8 "image saved"

-- Whether a piece of text would blur the bounds of a value.
def needsQuotes : Piece → Bool
  | .stray _ => true
  | .char c =>
    if c.toNat < 0x80 then c.toNat < 0x20 || c = ' ' || c = '=' || c = '"'
    else c = replacement || isBlank c || !isPrintable c

def value (bs : Bytes) : Bytes :=
  if bs = [] || (pieces bs).any needsQuotes then quote bs else bs

def pair (key : String) (shown : Bytes) : Bytes :=
  utf8 key ++ utf8 "=" ++ shown

def fields : Record → List Bytes
  | .duplicateLabel w => [pair "file" (value w.file), pair "line" (Numeral.decimal w.line)]
  | .labelsResolved file count size =>
    [pair "file" (value file), pair "count" (Numeral.decimal count),
      pair "size" (Numeral.decimal size)]
  | .zeroWord file line mnemonic =>
    [pair "file" (value file), pair "line" (Numeral.decimal line),
      pair "mnemonic" (value mnemonic)]
  | .imageSaved file instructions padding =>
    [pair "file" (value file), pair "instructions" (Numeral.decimal instructions),
      pair "padding" (Numeral.decimal padding)]

def text (r : Record) : Bytes :=
  pair "level" r.level.name ++ utf8 " " ++ pair "msg" (value r.message) ++
    (r.fields.flatMap fun f => utf8 " " ++ f) ++ utf8 "\n"

end Record

def logText (verbose : Bool) (records : List Record) : Bytes :=
  (records.filter fun r => verbose || r.level == .warn).flatMap Record.text

end StackAsm
