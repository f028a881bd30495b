import StackAsm.Source.Line
import StackAsm.Text.Numeral
import StackAsm.Text.Quoted

set_option autoImplicit false

namespace StackAsm

structure Label where
  name : Bytes
  line : Nat
  offset : Nat
  deriving DecidableEq, Repr

/-- The labels of a program, one for each name, in the order of their declarations. -/
abbrev LabelTable := List Label

namespace LabelTable

def lookup (t : LabelTable) (name : Bytes) : Option Label :=
  t.find? fun l => l.name == name

def bind (t : LabelTable) (l : Label) : LabelTable :=
  if (t.lookup l.name).isSome then t else t ++ [l]

end LabelTable

structure Warning where
  file : Bytes
  line : Nat
  name : Bytes
  firstLine : Nat
  deriving DecidableEq, Repr

namespace Warning

def message (w : Warning) : Bytes :=
  utf8 "duplicate label " ++ quote w.name ++ utf8 ", first declared at line " ++
    Numeral.decimal w.firstLine

def text (w : Warning) : Bytes :=
  w.file ++ utf8 ":" ++ Numeral.decimal w.line ++ utf8 ": warning: " ++ w.message

end Warning

namespace Label

-- The declarations in lines that follow `above` lines of `offset` bytes.
def declarationsFrom (above offset : Nat) : List Line → List Label
  | [] => []
  | l :: ls =>
    let below := declarationsFrom (above + 1) (offset + 4 * l.count) ls
    match l with
    | .label name => ⟨name, above + 1, offset⟩ :: below
    | _ => below

def declarations (ls : List Line) : List Label :=
  declarationsFrom 0 0 ls

def table (ds : List Label) : LabelTable :=
  ds.foldl LabelTable.bind []

def warningsFrom (file : Bytes) (t : LabelTable) : List Label → List Warning
  | [] => []
  | d :: ds =>
    match t.lookup d.name with
    | some first => ⟨file, d.line, d.name, first.line⟩ :: warningsFrom file (t.bind d) ds
    | none => warningsFrom file (t.bind d) ds

def warnings (file : Bytes) (ds : List Label) : List Warning :=
  warningsFrom file [] ds

end Label

def sizeOfLines (ls : List Line) : Nat :=
  4 * total (ls.map Line.count)

end StackAsm
