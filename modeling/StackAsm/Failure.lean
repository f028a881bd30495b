import StackAsm.Settings.Problem

set_option autoImplicit false

/-!
Failures: a cause, and the steps during which it arose, the outermost first. The wording of every
failure is here and nowhere else.
-/

namespace StackAsm

-- What is wrong with one source line. Mnemonics are in lower case, except an unknown one, which is
-- shown as it was written.
inductive LineProblem where
  | emptyLabelName
  | tooManyOperands (mnemonic : Bytes)
  | missingOperand (mnemonic : Bytes)
  | invalidNumber (mnemonic token : Bytes)
  | invalidHexadecimal (mnemonic token : Bytes)
  | invalidFormat (mnemonic token : Bytes)
  | unquotedString (mnemonic rest : Bytes)
  | unresolvedBranch (mnemonic : Bytes)
  | unknownMnemonic (written : Bytes)
  deriving DecidableEq, Repr

def LineProblem.isUnsupported : LineProblem → Bool
  | .unresolvedBranch _ | .unknownMnemonic _ => true
  | _ => false

def LineProblem.message : LineProblem → Bytes
  | .emptyLabelName => utf8 "empty label name"
  | .tooManyOperands mnemonic => mnemonic ++ utf8 ": too many operands"
  | .missingOperand mnemonic => mnemonic ++ utf8 ": missing operand"
  | .invalidNumber mnemonic token => mnemonic ++ utf8 ": invalid number " ++ quote token
  | .invalidHexadecimal mnemonic token =>
    mnemonic ++ utf8 ": invalid hexadecimal number " ++ quote token
  | .invalidFormat mnemonic token => mnemonic ++ utf8 ": invalid format " ++ quote token
  | .unquotedString mnemonic rest =>
    mnemonic ++ utf8 ": expected a quoted string, got " ++ quote rest
  | .unresolvedBranch mnemonic => mnemonic ++ utf8 ": branch offsets are not supported"
  | .unknownMnemonic written => utf8 "unknown mnemonic " ++ quote written

inductive FileAction where
  | opening
  | reading
  | writing
  deriving DecidableEq, Repr

def FileAction.name : FileAction → String
  | .opening => "open"
  | .reading => "read"
  | .writing => "write"

inductive FileFault where
  | absent
  | isDirectory
  | notDirectory
  | nameTooLong
  | invalidName
  | noSpace
  deriving DecidableEq, Repr

def FileFault.name : FileFault → String
  | .absent => "no such file or directory"
  | .isDirectory => "is a directory"
  | .notDirectory => "not a directory"
  | .nameTooLong => "file name too long"
  | .invalidName => "invalid argument"
  | .noSpace => "no space left on device"

inductive Cause where
  | badLine (file : Bytes) (number : Nat) (problem : LineProblem)
  | emptyProgram
  | badMagic
  | truncatedWord (offset : Nat)
  | unexpectedEnd
  -- Reported by the device that was read or written.
  | device (report : Bytes)
  | shortWrite
  | fileFault (action : FileAction) (name : Bytes) (fault : FileFault)
  | tooManyArguments
  | emptyOutputName (document : Bytes)
  | unreadableDocument (reason : Cause)
  | malformedDocument (fault : Yaml.Fault)
  | unsuitableDocument (problems : List Settings.Problem)
  deriving DecidableEq, Repr

def Cause.message : Cause → Bytes
  | .badLine file number problem =>
    file ++ utf8 ":" ++ Numeral.decimal number ++ utf8 ": " ++ problem.message
  | .emptyProgram => utf8 "empty program"
  | .badMagic => utf8 "bad magic header"
  | .truncatedWord offset => utf8 "truncated word at offset " ++ Numeral.decimal offset
  | .unexpectedEnd => utf8 "unexpected EOF"
  | .device report => report
  | .shortWrite => utf8 "short write"
  | .fileFault action name fault =>
    utf8 action.name ++ utf8 " " ++ name ++ utf8 ": " ++ utf8 fault.name
  | .tooManyArguments => utf8 "too many arguments"
  | .emptyOutputName document => document ++ utf8 ": empty output file name"
  | .unreadableDocument reason => utf8 "yaml: input error: " ++ reason.message
  | .malformedDocument fault => utf8 "yaml: " ++ fault.message
  | .unsuitableDocument problems =>
    utf8 "yaml: unmarshal errors:" ++
      problems.flatMap fun p => utf8 "\n  " ++ p.message

inductive Step where
  | openFailed
  | createFailed
  | saveFailed
  | loadFailed
  | writeFailed
  | headerReadFailed
  | wordReadFailed
  | lineReadFailed (number : Nat)
  | shortImage
  | foundHeader (header : Bytes)
  | about (name : Bytes)
  deriving DecidableEq, Repr

def Step.message : Step → Bytes
  | .openFailed => utf8 "open failed"
  | .createFailed => utf8 "create failed"
  | .saveFailed => utf8 "save failed"
  | .loadFailed => utf8 "load failed"
  | .writeFailed => utf8 "write failed"
  | .headerReadFailed => utf8 "header read failed"
  | .wordReadFailed => utf8 "word read failed"
  | .lineReadFailed number => utf8 "line " ++ Numeral.decimal number ++ utf8 ": read failed"
  | .shortImage => utf8 "image too short"
  | .foundHeader header =>
    utf8 "got" ++ header.flatMap fun b => utf8 " " ++ Numeral.hexPadded 2 b.toNat
  | .about name => name

structure Failure where
  steps : List Step
  cause : Cause
  deriving DecidableEq, Repr

namespace Failure

def ofCause (cause : Cause) : Failure :=
  ⟨[], cause⟩

def during (step : Step) (f : Failure) : Failure :=
  ⟨step :: f.steps, f.cause⟩

-- All on one line, the outermost step first.
def message (f : Failure) : Bytes :=
  (f.steps.flatMap fun s => s.message ++ utf8 ": ") ++ f.cause.message

def trace (f : Failure) : Bytes :=
  f.cause.message ++ f.steps.reverse.flatMap fun s => utf8 "\n" ++ s.message

end Failure

end StackAsm
