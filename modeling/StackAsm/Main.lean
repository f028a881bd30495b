import StackAsm.Command.Run

set_option autoImplicit false

/-!
The command on the files of this machine. The few entries that a run can touch are looked up, the
run is computed, and its change at the output path is carried out.
-/

namespace StackAsm

def nameText (name : Bytes) : String :=
  (String.fromUTF8? name.toByteArray).getD ""

def lookUp (name : String) (wholly : Bool) : IO (Option FileNode) := do
  let handle? ← try some <$> IO.FS.Handle.mk name .read catch _ => pure none
  match handle? with
  | none => return none
  | some handle =>
    try
      let content ← if wholly then handle.readBinToEnd else handle.read 1
      return some (.file content.toList)
    catch _ => return some .directory

-- Adds the directories along a name to a tree, and the entry under the name with its content or
-- only as far as to tell what it is.
def addEntries (t : FileTree) (name : Bytes) (wholly : Bool) : IO FileTree := do
  let parts := name.splitOn Ascii.slash
  let mut tree := t
  for count in List.range parts.length do
    let entry := List.intercalate [Ascii.slash] (parts.take (count + 1))
    if (tree.entry entry).toOption.isNone then
      if let some node ← lookUp (nameText entry) (wholly && entry == name) then
        tree := tree.place entry node
  return tree

def consult (arguments : List Bytes) : IO (FileTree × Bytes) := do
  match Command.parse arguments with
  | .error _ => return ({}, [])
  | .ok (flags, left) =>
    let configured ← addEntries {} (Command.configName flags) true
    let sources ← addEntries configured (left.headD Command.defaultInput) true
    match Command.effectiveSettings sources flags with
    | .error _ => return (sources, [])
    | .ok settings => return (← addEntries sources settings.output false, settings.output)

def carryOut (before after : FileTree) (output : Bytes) : IO Unit := do
  if let .ok spot := before.locate output then
    let path := spot.path
    let name := nameText output
    match before.node? path, after.node? path with
    | _, some (.file content) =>
      if before.node? path != after.node? path then
        IO.FS.writeBinFile name content.toByteArray
    | some .directory, none => IO.FS.removeDir name
    | some _, none => IO.FS.removeFile name
    | _, _ => return

end StackAsm

open StackAsm in
def main (args : List String) : IO UInt32 := do
  let arguments := args.map fun a => a.toUTF8.toList
  let (before, output) ← consult arguments
  let outcome := Command.run before arguments
  (← IO.getStderr).write outcome.stderr.toByteArray
  try
    carryOut before outcome.files output
  catch e =>
    if outcome.status = 0 then
      (← IO.getStderr).putStrLn (toString e)
      return 1
  (← IO.getStdout).write outcome.stdout.toByteArray
  return UInt32.ofNat outcome.status
