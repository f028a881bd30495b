import StackAsm.Assembly.Statement
import StackAsm.Input
import StackAsm.Log

set_option autoImplicit false

namespace StackAsm

structure Program where
  instructions : List Instruction
  labels : LabelTable
  warnings : List Warning
  deriving DecidableEq, Repr

structure Assembly where
  log : List Record
  result : Except Failure Program

namespace Assembly

def wellLabelled (ls : List Line) : List Line :=
  ls.takeWhile (· ≠ .label [])

def emitLine (mode : Mode) : Line → Except LineProblem (List Instruction)
  | .instruction text => Statement.emit mode text
  | _ => .ok []

def lineFailure (file : Bytes) (number : Nat) (problem : LineProblem) : Failure :=
  .ofCause (.badLine file number problem)

-- What lines yield that follow `above` others, one list for each line.
def emitFrom (file : Bytes) (mode : Mode) (above : Nat) :
    List Line → Except Failure (List (List Instruction))
  | [] => .ok []
  | l :: ls =>
    match emitLine mode l with
    | .error problem => .error (lineFailure file (above + 1) problem)
    | .ok is => (emitFrom file mode (above + 1) ls).map (is :: ·)

-- Whether a line yields the zero word for want of a mnemonic.
def zeroed (mode : Mode) (text : Bytes) : Bool :=
  (Statement.recognised? mode text).isNone && !mode.strict

def zeroWordsFrom (file : Bytes) (mode : Mode) (above : Nat) : List Line → List Record
  | [] => []
  | l :: ls =>
    match l, emitLine mode l with
    | _, .error _ => []
    | .instruction text, .ok _ =>
      (if zeroed mode text then [.zeroWord file (above + 1) (Line.mnemonic text)] else []) ++
        zeroWordsFrom file mode (above + 1) ls
    | _, .ok _ => zeroWordsFrom file mode (above + 1) ls

def ofLines (file : Bytes) (mode : Mode) (ls : List Line) : Assembly :=
  let declared := Label.declarations (wellLabelled ls)
  let warnings := Label.warnings file declared
  let labels := Label.table declared
  let duplicates := warnings.map Record.duplicateLabel
  if (wellLabelled ls).length < ls.length then
    { log := duplicates
      result := .error (lineFailure file ((wellLabelled ls).length + 1) .emptyLabelName) }
  else
    { log := duplicates ++ .labelsResolved file labels.length (sizeOfLines ls) ::
        zeroWordsFrom file mode 0 ls
      result := (emitFrom file mode 0 ls).map fun iss => ⟨iss.flatten, labels, warnings⟩ }

end Assembly

/-- Assembles what a reader delivers; `file` names it in messages. Nothing is assembled unless all
of it could be read. -/
def assemble (file : Bytes) (mode : Mode) (input : Input) : Assembly :=
  let raw := sourceLines input.data
  match input.failure with
  | some cause =>
    { log := [], result := .error ⟨[.lineReadFailed (raw.length + 1)], cause⟩ }
  | none => Assembly.ofLines file mode (raw.map Line.classify)

end StackAsm
