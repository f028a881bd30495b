import StackAsm.Output.Sink

set_option autoImplicit false

namespace StackAsm

structure Buffer (σ : Type) where
  state : σ
  pending : Bytes := []
  fault : Option Cause := none

namespace Buffer

variable {σ : Type}

def capacity : Nat := 4096

/-- Hands the pending bytes on in one call. A sink that takes too few without saying why fails. -/
def flush (sink : Sink σ) (b : Buffer σ) : Buffer σ :=
  match b.fault, b.pending with
  | some _, _ => b
  | none, [] => b
  | none, pending =>
    let (receipt, state) := sink.write b.state pending
    match receipt.fault with
    | some cause => ⟨state, pending.drop receipt.count, some cause⟩
    | none =>
      if receipt.count < pending.length then ⟨state, pending.drop receipt.count, some .shortWrite⟩
      else ⟨state, [], none⟩

/-- Adds bytes to an empty buffer. More than a full load is passed straight to the sink, and again
what the sink leaves over without saying why. -/
def refill (sink : Sink σ) (state : σ) (bs : Bytes) : Buffer σ :=
  if bs.length ≤ capacity then ⟨state, bs, none⟩
  else
    let (receipt, after) := sink.write state bs
    match receipt.fault with
    | some cause => ⟨after, [], some cause⟩
    | none =>
      -- Nothing taken and nothing said would be tried for ever.
      if receipt.count = 0 then ⟨after, [], some .shortWrite⟩
      else refill sink after (bs.drop receipt.count)
termination_by bs.length
decreasing_by
  rw [List.length_drop]
  omega

theorem refill_of_length_le {sink : Sink σ} {state : σ} {bs : Bytes}
    (short : bs.length ≤ capacity) : refill sink state bs = ⟨state, bs, none⟩ := by
  rw [refill, if_pos short]

-- Adds bytes. What does not fit fills the buffer up, which is then flushed.
def add (sink : Sink σ) (b : Buffer σ) (bs : Bytes) : Buffer σ :=
  match b.fault with
  | some _ => b
  | none =>
    let room := capacity - b.pending.length
    if bs.length ≤ room then { b with pending := b.pending ++ bs }
    else if b.pending = [] then refill sink b.state bs
    else
      let filled := flush sink { b with pending := b.pending ++ bs.take room }
      match filled.fault with
      | some _ => filled
      | none => refill sink filled.state (bs.drop room)

def sink (inner : Sink σ) : Sink (Buffer σ) where
  write b bs :=
    let after := add inner b bs
    (⟨if after.fault.isSome then 0 else bs.length, after.fault⟩, after)

end Buffer

end StackAsm
