import StackAsm.Settings.Basic

set_option autoImplicit false

namespace StackAsm.Command

inductive Flag where
  | config (name : Bytes)
  | disassemble (on : Bool)
  | debug (on : Bool)
  | setting (assignment : Settings.Assignment)
  deriving DecidableEq, Repr

-- Why flags cannot be read. Asking for help is one reason.
inductive FlagProblem where
  | help
  | malformed (argument : Bytes)
  | undefined (name : Bytes)
  | missingValue (name : Bytes)
  | badSwitch (name value : Bytes)
  deriving DecidableEq, Repr

def FlagProblem.message : FlagProblem → Bytes
  | .help => []
  | .malformed argument => utf8 "bad flag syntax: " ++ argument ++ utf8 "\n"
  | .undefined name => utf8 "flag provided but not defined: -" ++ name ++ utf8 "\n"
  | .missingValue name => utf8 "flag needs an argument: -" ++ name ++ utf8 "\n"
  | .badSwitch name value =>
    utf8 "invalid boolean value " ++ quote value ++ utf8 " for -" ++ name ++
      utf8 ": parse error\n"

inductive FlagKind where
  | name (flag : Bytes → Flag)
  | switch (flag : Bool → Flag)

def flagKind? (name : Bytes) : Option FlagKind :=
  if name = utf8 "config" then some (.name .config)
  else if name = utf8 "o" then some (.name fun n => .setting (.output n))
  else if name = utf8 "d" then some (.switch .disassemble)
  else if name = utf8 "debug" then some (.switch .debug)
  else if name = utf8 "extended" then some (.switch fun on => .setting (.extended on))
  else if name = utf8 "labels" then some (.switch fun on => .setting (.labels on))
  else if name = utf8 "strict" then some (.switch fun on => .setting (.strict on))
  else if name = utf8 "v" then some (.switch fun on => .setting (.verbose on))
  else none

def switchValue? (value : Bytes) : Option Bool :=
  if (["1", "t", "T", "TRUE", "true", "True"].map utf8).contains value then some true
  else if (["0", "f", "F", "FALSE", "false", "False"].map utf8).contains value then some false
  else none

open Ascii

inductive Argument where
  | plain
  | endOfFlags
  | malformed
  | flag (name : Bytes) (value : Option Bytes)
  deriving DecidableEq, Repr

def nameAndValue (bs : Bytes) : Argument :=
  match bs with
  | [] => .malformed
  | b :: rest =>
    if b = hyphen ∨ b = equals then .malformed
    else
      let name := b :: rest.takeWhile (· ≠ equals)
      match rest.dropWhile (· ≠ equals) with
      | [] => .flag name none
      | _ :: value => .flag name (some value)

def Argument.ofBytes (bs : Bytes) : Argument :=
  match bs with
  | [] | [_] => .plain
  | b :: c :: rest =>
    if b ≠ hyphen then .plain
    else if c ≠ hyphen then nameAndValue (c :: rest)
    else if rest = [] then .endOfFlags
    else nameAndValue rest

def readFlag (name : Bytes) (value : Option Bytes) (after : List Bytes) :
    Except FlagProblem (Flag × List Bytes) :=
  match flagKind? name with
  | none =>
    if name = utf8 "help" ∨ name = utf8 "h" then .error .help else .error (.undefined name)
  | some (.switch flag) =>
    match value with
    | none => .ok (flag true, after)
    | some v =>
      match switchValue? v with
      | some on => .ok (flag on, after)
      | none => .error (.badSwitch name v)
  | some (.name flag) =>
    match value, after with
    | some v, _ => .ok (flag v, after)
    | none, v :: rest => .ok (flag v, rest)
    | none, [] => .error (.missingValue name)

def parseWithin : Nat → List Bytes → Except FlagProblem (List Flag × List Bytes)
  | 0, arguments => .ok ([], arguments)
  | _, [] => .ok ([], [])
  | fuel + 1, argument :: after =>
    match Argument.ofBytes argument with
    | .plain => .ok ([], argument :: after)
    | .endOfFlags => .ok ([], after)
    | .malformed => .error (.malformed argument)
    | .flag name value =>
      match readFlag name value after with
      | .error problem => .error problem
      | .ok (flag, left) =>
        (parseWithin fuel left).map fun (flags, arguments) => (flag :: flags, arguments)

-- Every flag takes an argument, so that there are no more flags than arguments.
def parse (arguments : List Bytes) : Except FlagProblem (List Flag × List Bytes) :=
  parseWithin arguments.length arguments

def assignments (flags : List Flag) : List Settings.Assignment :=
  flags.filterMap fun
    | .setting assignment => some assignment
    | _ => none

def configName (flags : List Flag) : Bytes :=
  flags.foldl (fun name flag => match flag with | .config n => n | _ => name) []

def asksDisassembly (flags : List Flag) : Bool :=
  flags.foldl (fun on flag => match flag with | .disassemble b => b | _ => on) false

def asksTrace (flags : List Flag) : Bool :=
  flags.foldl (fun on flag => match flag with | .debug b => b | _ => on) false

def usage : Bytes :=
  utf8 (String.intercalate "\n"
    ["Usage of vmasm:",
      "  -config filename",
      "    \tload settings from YAML file filename",
      "  -d\tdisassemble the input image instead of assembling it",
      "  -debug",
      "    \tprint a full stack trace on errors",
      "  -extended",
      "    \tenable the arithmetic, pop, push, print, stprint, dump and return mnemonics",
      "  -labels",
      "    \tprint the label table",
      "  -o filename",
      "    \toutput image file name filename (default \"output.bin\")",
      "  -strict",
      "    \treject unsupported mnemonics instead of assembling them as 0",
      "  -v\tverbose logging",
      ""])

end StackAsm.Command
