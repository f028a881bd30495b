import StackAsm.Proofs.Output.Limit

set_option autoImplicit false

namespace StackAsm

inductive Call where
  | bytes (bs : Bytes)
  | word (w : UInt32)
  deriving DecidableEq, Repr

namespace Call

def payload : Call → Bytes
  | .bytes bs => bs
  | .word w => wordBytes w

def stream (calls : List Call) : Bytes :=
  calls.flatMap payload

end Call

structure Transfer where
  bytes : Bytes
  receipt : Receipt
  deriving DecidableEq, Repr

namespace Transfer

def counted (transfers : List Transfer) : Nat :=
  total (transfers.map fun t => t.receipt.count)

theorem counted_concat (transfers : List Transfer) (last : Transfer) :
    counted (transfers ++ [last]) = counted transfers + last.receipt.count := by
  rw [counted, List.map_append, total_append]
  rfl

def Unfailed (transfers : List Transfer) : Prop :=
  ∀ t ∈ transfers, t.receipt.fault = none

end Transfer

variable {σ : Type}

def Sink.recorded (sink : Sink σ) : Sink (σ × List Transfer) where
  write s bs :=
    let (receipt, state) := sink.write s.1 bs
    (receipt, (state, s.2 ++ [⟨bs, receipt⟩]))

namespace Checked

def perform (sink : Sink σ) (c : Checked σ) : Call → Nat × Checked σ
  | .bytes bs => c.write sink bs
  | .word w => c.writeWord sink w

theorem perform_eq_write (sink : Sink σ) (c : Checked σ) (call : Call) :
    c.perform sink call = c.write sink call.payload := by
  cases call <;> rfl

def reply (sink : Sink σ) (c : Checked σ) (call : Call) : Nat × Option Failure :=
  ((c.perform sink call).1, (c.perform sink call).2.failure)

def performAll (sink : Sink σ) (c : Checked σ) (calls : List Call) : Checked σ :=
  calls.foldl (fun c call => (c.perform sink call).2) c

theorem performAll_eq_writeAll (sink : Sink σ) (c : Checked σ) (calls : List Call) :
    c.performAll sink calls = c.writeAll sink (calls.map Call.payload) := by
  simp only [performAll, writeAll, List.foldl_map, perform_eq_write]

theorem perform_of_failure (sink : Sink σ) {c : Checked σ} {f : Failure}
    (failed : c.failure = some f) (call : Call) : c.perform sink call = (0, c) := by
  rw [perform_eq_write, write_of_failure sink c failed]

theorem performAll_of_failure (sink : Sink σ) {c : Checked σ} {f : Failure}
    (failed : c.failure = some f) (calls : List Call) : c.performAll sink calls = c := by
  rw [performAll_eq_writeAll, writeAll_of_failure sink c failed]

theorem reply_of_failure (sink : Sink σ) {c : Checked σ} {f : Failure} (failed : c.failure = some f)
    (call : Call) : c.reply sink call = (0, some f) := by
  rw [reply, perform_of_failure sink failed, failed]

section Recording

open Transfer

def unrecorded (c : Checked (σ × List Transfer)) : Checked σ :=
  ⟨c.state.1, c.total, c.failure⟩

theorem unrecorded_write (sink : Sink σ) (c : Checked (σ × List Transfer)) (bs : Bytes) :
    (c.write sink.recorded bs).2.unrecorded = (c.unrecorded.write sink bs).2 := by
  obtain ⟨state, count, failure⟩ := c
  cases failure <;> rfl

theorem unrecorded_writeAll (sink : Sink σ) (c : Checked (σ × List Transfer))
    (calls : List Bytes) :
    (c.writeAll sink.recorded calls).unrecorded = c.unrecorded.writeAll sink calls := by
  induction calls generalizing c with
  | nil => rfl
  | cons bs calls ih => rw [writeAll_cons, writeAll_cons, ih, unrecorded_write]

/-- What a checked sink tells of the transfers behind it, when `given` has been written. Either all
of it has reached the sink without a failure, or the sink has failed once, in its last transfer,
and what was given after that is `unheard`. -/
inductive Accounts : Checked (σ × List Transfer) → List Bytes → Prop where
  | sound {state : σ} {transfers : List Transfer} (unfailed : Unfailed transfers) :
    Accounts ⟨(state, transfers), counted transfers, none⟩ (transfers.map Transfer.bytes)
  | failed {state : σ} {transfers : List Transfer} {last : Transfer} {cause : Cause}
    (unfailed : Unfailed transfers) (fault : last.receipt.fault = some cause)
    (unheard : List Bytes) :
    Accounts ⟨(state, transfers ++ [last]), counted (transfers ++ [last]),
      some ⟨[.writeFailed], cause⟩⟩ ((transfers ++ [last]).map Transfer.bytes ++ unheard)

theorem Accounts.write {sink : Sink σ} {c : Checked (σ × List Transfer)} {given : List Bytes}
    (accounts : Accounts c given) (bs : Bytes) :
    Accounts (c.write sink.recorded bs).2 (given ++ [bs]) := by
  cases accounts with
  | failed unfailed fault unheard =>
    rw [write_of_failure _ _ rfl, List.append_assoc]
    exact .failed unfailed fault (unheard ++ [bs])
  | @sound state transfers unfailed =>
    -- The call reaches the sink, whose answer decides whether it is the last to do so.
    let next : Transfer := ⟨bs, (sink.write state bs).1⟩
    have given : transfers.map Transfer.bytes ++ [bs] =
        (transfers ++ [next]).map Transfer.bytes := by
      rw [List.map_append, List.map_singleton]
    have written :
        (Checked.write sink.recorded ⟨(state, transfers), counted transfers, none⟩ bs).2 =
        ⟨((sink.write state bs).2, transfers ++ [next]), counted (transfers ++ [next]),
          next.receipt.fault.map fun cause => ⟨[.writeFailed], cause⟩⟩ := by
      rw [counted_concat]
      rfl
    rw [written, given]
    cases reported : next.receipt.fault with
    | none =>
      refine .sound fun t member => ?_
      rcases List.mem_append.1 member with earlier | new
      · exact unfailed t earlier
      · rw [List.mem_singleton.1 new, reported]
    | some cause =>
      have failed := @Accounts.failed σ (sink.write state bs).2 _ _ _ unfailed reported []
      rwa [List.append_nil] at failed

theorem Accounts.writeAll {sink : Sink σ} {c : Checked (σ × List Transfer)} {given : List Bytes}
    (accounts : Accounts c given) (calls : List Bytes) :
    Accounts (c.writeAll sink.recorded calls) (given ++ calls) := by
  induction calls generalizing c given with
  | nil => rwa [List.append_nil]
  | cons bs calls ih =>
    have written : Accounts (c.write sink.recorded bs).2 (given ++ [bs]) := accounts.write bs
    have rest := ih written
    rwa [List.append_assoc] at rest

end Recording

end Checked

open Checked in
/-- Whatever the sink behind it answers, a checked sink keeps account of its transfers and stops at
the first failure. Over a sink with a limit the bytes taken are the first of all, whether what is
missing is reported or not. -/
theorem checked_sink_stops_at_first_failure (calls : List Call) :
    (∀ {σ : Type} (sink : Sink σ) (start : σ), ∃ done : Checked (σ × List Transfer),
      performAll sink.recorded { state := (start, []) } calls = done ∧
      performAll sink { state := start } calls = done.unrecorded ∧
      Accounts done (calls.map Call.payload) ∧
      ∀ f, done.failure = some f → ∀ later : List Call,
        performAll sink.recorded done later = done ∧
        ∀ call, reply sink.recorded done call = (0, some f)) ∧
    ∀ (limit : Nat) (report : Option Cause), ∃ done : Checked Bytes,
      performAll (.limited limit report) { state := [] } calls = done ∧
      done.state = (Call.stream calls).take (min limit (Call.stream calls).length) ∧
      done.total = done.state.length ∧
      (done.failure ≠ none ↔ report ≠ none ∧ limit < (Call.stream calls).length) := by
  constructor
  · intro σ sink start
    refine ⟨_, rfl, ?_, ?_, ?_⟩
    · rw [performAll_eq_writeAll, performAll_eq_writeAll, unrecorded_writeAll]
      rfl
    · have fresh : Accounts (⟨(start, []), 0, none⟩ : Checked (σ × List Transfer)) [] :=
        @Accounts.sound σ start [] nofun
      rw [performAll_eq_writeAll]
      exact fresh.writeAll (calls.map Call.payload)
    · intro f failed later
      exact ⟨performAll_of_failure _ failed later, reply_of_failure _ failed⟩
  · intro limit report
    have metered := (metered_nil limit report).writeAll (calls.map Call.payload)
    rw [← performAll_eq_writeAll, List.nil_append] at metered
    refine ⟨_, rfl, ?_, ?_, ?_⟩
    · rw [← List.take_eq_take_min]
      exact metered.state_eq
    · rw [metered.total_eq, metered.state_eq, List.length_take]
    · rw [metered.failure_eq, ← List.flatMap_def]
      change _ ↔ report ≠ none ∧ limit < (calls.flatMap Call.payload).length
      cases report <;> simp

open Checked in
-- There is room for a word and two bytes. The second call is cut, and the third does not reach the
-- sink if the cut is reported. If it is not, nobody knows that a byte is missing.
theorem checked_sink_stops_at_first_failure_of_cut_call :
    (∃ (done : Checked (Bytes × List Transfer)) (f : Failure),
      performAll (Sink.limited 6 (some (.device (utf8 "boom")))).recorded { state := ([], []) }
        [.word 0xDEADBEEF, .bytes [1, 2, 3], .word 1] = done ∧
      done.state.2 = [⟨[0xEF, 0xBE, 0xAD, 0xDE], 4, none⟩,
        ⟨[1, 2, 3], 2, some (.device (utf8 "boom"))⟩] ∧
      done.total = 6 ∧ done.failure = some f ∧ f.message = utf8 "write failed: boom" ∧
      reply (Sink.limited 6 (some (.device (utf8 "boom")))).recorded done (.bytes []) =
        (0, some f)) ∧
    ∃ done : Checked Bytes,
      performAll (.limited 6 none) { state := [] } [.word 0xDEADBEEF, .bytes [1, 2, 3], .word 1] =
        done ∧
      done.state = [0xEF, 0xBE, 0xAD, 0xDE, 1, 2] ∧ done.failure = none := by
  obtain ⟨every, limited⟩ :=
    checked_sink_stops_at_first_failure [.word 0xDEADBEEF, .bytes [1, 2, 3], .word 1]
  constructor
  · obtain ⟨done, rfl, -, -, sticks⟩ := every (.limited 6 (some (.device (utf8 "boom")))) []
    exact ⟨_, _, rfl, rfl, rfl, rfl, rfl, (sticks _ rfl []).2 _⟩
  · obtain ⟨done, run, taken, -, failed⟩ := limited 6 none
    exact ⟨done, run, taken, Decidable.not_not.1 (mt failed.1 fun reported => reported.1 rfl)⟩

end StackAsm
