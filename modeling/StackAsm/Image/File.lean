import StackAsm.FileTree
import StackAsm.Image.Basic
import StackAsm.Output.Buffer

set_option autoImplicit false

namespace StackAsm.Image

-- The sink that an entry of the tree is when opened for writing. Files lie on a disk.
def fileSink (disk : Sink Bytes) (name : Bytes) : Option FileNode → Sink Bytes
  | some .fullDevice => .limited 0 (some (.fileFault .writing name .noSpace))
  | _ => disk

def writtenNode (content : Bytes) : Option FileNode → FileNode
  | some .fullDevice => .fullDevice
  | _ => .file content

def writeBuffered (sink : Sink Bytes) (is : List Instruction) : Written × Bytes :=
  match write (Buffer.sink sink) { state := [] } is with
  | (⟨_, some f⟩, b) => (⟨0, some f⟩, b.state)
  | (⟨n, none⟩, b) =>
    let flushed := b.flush sink
    match flushed.fault with
    | some cause => (⟨0, some (.ofCause cause)⟩, flushed.state)
    | none => (⟨n, none⟩, flushed.state)

def saveOn (disk : Sink Bytes) (t : FileTree) (name : Bytes) (is : List Instruction) :
    Written × FileTree :=
  if is = [] then (⟨0, some (.ofCause .emptyProgram)⟩, t)
  else
    match t.writablePath name with
    | .error cause => (⟨0, some ⟨[.createFailed], cause⟩⟩, t)
    | .ok p =>
      match writeBuffered (fileSink disk name (t.node? p)) is with
      | (⟨_, some f⟩, _) => (⟨0, some (f.during .saveFailed)⟩, t.remove name)
      | (⟨n, none⟩, content) => (⟨n, none⟩, t.put p (writtenNode content (t.node? p)))

def save (t : FileTree) (name : Bytes) (is : List Instruction) : Written × FileTree :=
  saveOn .unlimited t name is

def load (t : FileTree) (name : Bytes) : Except Failure (List UInt32) :=
  match t.openInput name with
  | .error cause => .error ⟨[.openFailed], cause⟩
  | .ok input =>
    match read input with
    | .error f => .error (f.during .loadFailed)
    | .ok ws => .ok ws

end StackAsm.Image
