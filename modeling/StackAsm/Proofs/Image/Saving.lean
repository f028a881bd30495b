import StackAsm.Image.File
import StackAsm.Proofs.FileTree
import StackAsm.Proofs.Image.RoundTrip

set_option autoImplicit false

namespace StackAsm.Image

variable {sink : Sink Bytes} {is : List Instruction}

-- The words of a program, filled up with `nop` to a multiple of four.
def Padded (is : List Instruction) (ws : List UInt32) : Prop :=
  ∃ padding, padding < 4 ∧ ws.length % 4 = 0 ∧
    ws = is.map Instruction.encode ++ List.replicate padding (Instruction.encode .nop)

theorem padded_words (is : List Instruction) : Padded is (words is) := by
  refine ⟨(4 - is.length % 4) % 4, by omega, ?_, words_eq_append is⟩
  rw [words_eq_append, List.length_append, List.length_map, List.length_replicate]
  omega

theorem load_of_entry {t : FileTree} {name : Bytes} {ws : List UInt32}
    (image : t.entry name = .ok (.file (bytesOfWords ws))) : load t name = .ok ws := by
  have opened : t.openInput name = .ok (.ofBytes (bytesOfWords ws)) := by
    simp only [FileTree.openInput, image]
  simp only [load, opened, read_bytesOfWords]

theorem writeBuffered_of_accepts (accepts : sink.Accepts (· = ·)) (nonempty : is ≠ []) :
    writeBuffered sink is = (⟨(words is).length, none⟩, bytes is) := by
  have fresh : Buffer.Given (· = ·) ({ state := [] } : Buffer Bytes) [] := ⟨rfl, [], rfl, rfl⟩
  obtain ⟨b, written, given⟩ := write_of_accepts (Buffer.accepts_sink accepts) fresh nonempty
  obtain ⟨unfailed, -, through⟩ := Buffer.flush_of_accepts accepts given
  simp only [writeBuffered, written, unfailed, through, List.nil_append]

theorem doomed_write (refuses : sink.Refuses) (b : Buffer Bytes) (nonempty : is ≠ []) :
    (write (Buffer.sink sink) b is).2.Doomed := by
  have header : (b.add sink magic).Doomed := Buffer.doomed_add refuses (.inr (by decide))
  have all := Buffer.doomed_writeAll refuses
    (c := (Checked.write (Buffer.sink sink) { state := b } magic).2) header
    ((words is).map wordBytes)
  simp only [write, nonempty, ↓reduceIte, Checked.writeAll_cons]
  split
  next => exact all
  next => exact all

theorem writeBuffered_of_refuses (refuses : sink.Refuses) (nonempty : is ≠ []) :
    ∃ f taken, writeBuffered sink is = (⟨0, some f⟩, taken) := by
  have doomed := doomed_write refuses { state := [] } nonempty
  rw [writeBuffered]
  generalize write (Buffer.sink sink) { state := [] } is = done at doomed ⊢
  rcases done with ⟨⟨n, failure⟩, b⟩
  cases failure with
  | some f => exact ⟨_, _, rfl⟩
  | none =>
    -- All calls went into the buffer, so that the failure comes with the flush.
    have failed := Buffer.flush_of_refuses refuses doomed
    cases reported : (b.flush sink).fault with
    | none => exact absurd reported failed
    | some cause =>
      simp only [reported]
      exact ⟨_, _, rfl⟩

theorem fileSink_of_ne (disk : Sink Bytes) (name : Bytes) {node : Option FileNode}
    (other : node ≠ some .fullDevice) : fileSink disk name node = disk := by
  rcases node with _ | _ | _ | _
  all_goals first | rfl | exact absurd rfl other

theorem writtenNode_of_ne (content : Bytes) {node : Option FileNode}
    (other : node ≠ some .fullDevice) : writtenNode content node = .file content := by
  rcases node with _ | _ | _ | _
  all_goals first | rfl | exact absurd rfl other

inductive Saved (t : FileTree) (name : Bytes) (is : List Instruction) :
    Written → FileTree → Prop where
  | untouched (f : Failure) (unable : is = [] ∨ ∃ cause, t.writablePath name = .error cause) :
    Saved t name is ⟨0, some f⟩ t
  | removed (f : Failure) {p : Path} (writable : t.writablePath name = .ok p)
    (full : t.node? p = some .fullDevice) : Saved t name is ⟨0, some f⟩ (t.remove name)
  | written {p : Path} (writable : t.writablePath name = .ok p) (nonempty : is ≠ []) :
    Saved t name is ⟨(words is).length, none⟩ (t.put p (.file (bytes is)))

theorem saved_save (t : FileTree) (name : Bytes) (is : List Instruction) :
    Saved t name is (save t name is).1 (save t name is).2 := by
  rw [save, saveOn]
  by_cases empty : is = []
  next =>
    rw [if_pos empty]
    exact .untouched _ (.inl empty)
  next =>
    rw [if_neg empty]
    cases writable : t.writablePath name with
    | error cause => exact .untouched _ (.inr ⟨cause, writable⟩)
    | ok p =>
      by_cases full : t.node? p = some .fullDevice
      next =>
        have refuses := Sink.refuses_limited_zero (.fileFault .writing name .noSpace)
        obtain ⟨f, taken, failed⟩ := writeBuffered_of_refuses refuses empty
        simp only [full, fileSink, failed]
        exact .removed _ writable full
      next =>
        simp only [fileSink_of_ne _ name full, writtenNode_of_ne (bytes is) full,
          writeBuffered_of_accepts Sink.accepts_unlimited empty]
        exact .written writable empty

end StackAsm.Image
