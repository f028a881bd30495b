import StackAsm.Failure

set_option autoImplicit false

namespace StackAsm

structure Receipt where
  count : Nat
  fault : Option Cause
  deriving DecidableEq, Repr

structure Sink (σ : Type) where
  write : σ → Bytes → Receipt × σ

namespace Sink

def unlimited : Sink Bytes where
  write taken bs := (⟨bs.length, none⟩, taken ++ bs)

/-- Takes `limit` bytes in all and cuts the call that goes beyond. The cut is reported as `report`,
or not at all. -/
def limited (limit : Nat) (report : Option Cause) : Sink Bytes where
  write taken bs :=
    let room := limit - taken.length
    if bs.length ≤ room then (⟨bs.length, none⟩, taken ++ bs)
    else (⟨room, report⟩, taken ++ bs.take room)

end Sink

-- A sink together with the count of all bytes it took and the first failure it reported.
structure Checked (σ : Type) where
  state : σ
  total : Nat := 0
  failure : Option Failure := none

namespace Checked

variable {σ : Type}

def write (sink : Sink σ) (c : Checked σ) (bs : Bytes) : Nat × Checked σ :=
  match c.failure with
  | some _ => (0, c)
  | none =>
    let (receipt, state) := sink.write c.state bs
    (receipt.count,
      { state := state
        total := c.total + receipt.count
        failure := receipt.fault.map fun cause => ⟨[.writeFailed], cause⟩ })

theorem write_of_failure (sink : Sink σ) (c : Checked σ) {f : Failure} (h : c.failure = some f)
    (bs : Bytes) : c.write sink bs = (0, c) := by
  simp [write, h]

def writeWord (sink : Sink σ) (c : Checked σ) (w : UInt32) : Nat × Checked σ :=
  c.write sink (wordBytes w)

def writeAll (sink : Sink σ) (c : Checked σ) (calls : List Bytes) : Checked σ :=
  calls.foldl (fun c bs => (c.write sink bs).2) c

@[simp] theorem writeAll_nil (sink : Sink σ) (c : Checked σ) : c.writeAll sink [] = c := rfl

@[simp] theorem writeAll_cons (sink : Sink σ) (c : Checked σ) (bs : Bytes) (calls : List Bytes) :
    c.writeAll sink (bs :: calls) = (c.write sink bs).2.writeAll sink calls := rfl

theorem writeAll_of_failure (sink : Sink σ) (c : Checked σ) {f : Failure} (h : c.failure = some f)
    (calls : List Bytes) : c.writeAll sink calls = c := by
  induction calls with
  | nil => rfl
  | cons bs calls ih => rw [writeAll_cons, write_of_failure sink c h, ih]

end Checked

end StackAsm
