import StackAsm.Assembly.Program
import StackAsm.Command.Flags
import StackAsm.Image.File
import StackAsm.LabelReport
import StackAsm.Listing

set_option autoImplicit false

namespace StackAsm.Command

variable {σ : Type}

structure FileAssembly (σ : Type) where
  failure : Option Failure
  log : List Record
  output : σ
  files : FileTree

def savedLine (words : Nat) (name : Bytes) : Bytes :=
  utf8 "wrote " ++ Numeral.decimal words ++ utf8 " instructions to " ++ name ++ utf8 "\n"

def reportLabels (sink : Sink σ) (output : σ) (wanted : Bool) (labels : LabelTable) :
    Option Failure × σ :=
  if wanted then
    let rows := labels.map LabelReport.rowOfLabel
    let (receipt, after) := sink.write output (LabelReport.render false rows)
    (receipt.fault.map fun cause => ⟨[.writeFailed], cause⟩, after)
  else (none, output)

def report (sink : Sink σ) (output : σ) (s : Settings) (words : Nat) (labels : LabelTable) :
    Option Failure × σ :=
  match reportLabels sink output s.labels labels with
  | (some f, after) => (some f, after)
  | (none, after) =>
    let (receipt, done) := sink.write after (savedLine words s.output)
    (receipt.fault.map Failure.ofCause, done)

def assembleFile (sink : Sink σ) (output : σ) (t : FileTree) (s : Settings) (name : Bytes) :
    FileAssembly σ :=
  match t.openInput name with
  | .error cause => ⟨some ⟨[.openFailed], cause⟩, [], output, t⟩
  | .ok input =>
    let a := assemble name ⟨s.strict, s.extended⟩ input
    match a.result with
    | .error f => ⟨some f, a.log, output, t⟩
    | .ok p =>
      match Image.save t s.output p.instructions with
      | (⟨_, some f⟩, files) => ⟨some (f.during (.about name)), a.log, output, files⟩
      | (⟨words, none⟩, files) =>
        let log := a.log ++
          [.imageSaved s.output p.instructions.length (words - p.instructions.length)]
        let (failure, after) := report sink output s words p.labels
        ⟨failure, log, after, files⟩

def disassembleFile (sink : Sink σ) (output : σ) (t : FileTree) (name : Bytes) :
    Option Failure × σ :=
  match Image.load t name with
  | .error f => (some (f.during (.about name)), output)
  | .ok ws =>
    match Listing.write (Buffer.sink sink) { state := output } ws with
    | (some f, b) => (some f, b.state)
    | (none, b) =>
      let flushed := b.flush sink
      (flushed.fault.map fun cause => ⟨[.writeFailed], cause⟩, flushed.state)

structure Outcome where
  status : Nat
  stdout : Bytes := []
  stderr : Bytes := []
  files : FileTree
  deriving DecidableEq, Repr

def defaultInput : Bytes := utf8 "asm/input.asm"

def failureText (traced : Bool) (f : Failure) : Bytes :=
  (if traced then f.trace else f.message) ++ utf8 "\n"

def Outcome.ofFailure (traced : Bool) (failure : Option Failure) (stdout log : Bytes)
    (files : FileTree) : Outcome :=
  match failure with
  | none => ⟨0, stdout, log, files⟩
  | some f => ⟨1, stdout, log ++ failureText traced f, files⟩

/-- The settings of a run: the defaults, over them the settings file, over it the flags. -/
def effectiveSettings (t : FileTree) (flags : List Flag) : Except Failure Settings :=
  let loaded :=
    if configName flags = [] then ({}, none) else Settings.load t (configName flags) {}
  match loaded with
  | (_, some f) => .error f
  | (s, none) => .ok (s.assignAll (assignments flags))

/-- Assembles, and after a failure removes what is at the output path. -/
def runAssembly (sink : Sink Bytes) (t : FileTree) (traced : Bool) (s : Settings) (name : Bytes) :
    Outcome :=
  let a := assembleFile sink [] t s name
  let files := if a.failure.isSome then a.files.remove s.output else a.files
  .ofFailure traced a.failure a.output (logText s.verbose a.log) files

def runListing (sink : Sink Bytes) (t : FileTree) (traced : Bool) (name : Bytes) : Outcome :=
  let (failure, stdout) := disassembleFile sink [] t name
  .ofFailure traced failure stdout [] t

def runWith (sink : Sink Bytes) (t : FileTree) (flags : List Flag) (name : Bytes) : Outcome :=
  match effectiveSettings t flags with
  | .error f => .ofFailure (asksTrace flags) (some f) [] [] t
  | .ok s =>
    if asksDisassembly flags then runListing sink t (asksTrace flags) name
    else runAssembly sink t (asksTrace flags) s name

def runInto (sink : Sink Bytes) (t : FileTree) (arguments : List Bytes) : Outcome :=
  match parse arguments with
  | .error problem =>
    ⟨if problem = .help then 0 else 2, [], problem.message ++ usage, t⟩
  | .ok (flags, []) => runWith sink t flags defaultInput
  | .ok (flags, [name]) => runWith sink t flags name
  | .ok (flags, _ :: _ :: _) =>
    .ofFailure (asksTrace flags) (some (.ofCause .tooManyArguments)) [] usage t

def run (t : FileTree) (arguments : List Bytes) : Outcome :=
  runInto .unlimited t arguments

end StackAsm.Command
