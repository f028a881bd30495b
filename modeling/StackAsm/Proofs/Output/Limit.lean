import StackAsm.Proofs.Output.Acceptance

set_option autoImplicit false

namespace StackAsm

namespace Sink

theorem write_limited (limit : Nat) (report : Option Cause) (taken bs : Bytes) :
    (limited limit report).write taken bs =
      (⟨min bs.length (limit - taken.length),
        if limit - taken.length < bs.length then report else none⟩,
        taken ++ bs.take (limit - taken.length)) := by
  by_cases fits : bs.length ≤ limit - taken.length
  next =>
    simp only [limited, fits, ↓reduceIte, Nat.min_eq_left, Nat.not_lt.2 fits,
      List.take_of_length_le]
  next =>
    have more := Nat.lt_of_not_le fits
    simp only [limited, fits, ↓reduceIte, Nat.min_eq_right (Nat.le_of_lt more), more]

def Within (limit : Nat) (taken given : Bytes) : Prop :=
  taken = given ∧ given.length ≤ limit

def Beyond (limit : Nat) (taken given : Bytes) : Prop :=
  taken = given.take limit ∧ limit < given.length

theorem Within.eq_take {limit : Nat} {taken given : Bytes} (within : Within limit taken given) :
    taken = given.take limit := by
  rw [List.take_of_length_le within.2, within.1]

theorem within_nil (limit : Nat) : Within limit [] [] :=
  ⟨rfl, Nat.zero_le limit⟩

theorem stopsWith_limited (limit : Nat) (cause : Cause) :
    (limited limit (some cause)).StopsWith cause (Within limit) (Beyond limit) where
  write {taken given} bs := by
    rintro ⟨rfl, small⟩
    by_cases fits : bs.length ≤ limit - taken.length
    next =>
      have whole : (taken ++ bs).length ≤ limit := by
        rw [List.length_append]
        omega
      left
      simp only [limited, fits, ↓reduceIte, true_and]
      exact ⟨rfl, whole⟩
    next =>
      have more : limit < (taken ++ bs).length := by
        rw [List.length_append]
        omega
      right
      simp only [limited, fits, ↓reduceIte, true_and]
      exact ⟨by rw [List.take_append, List.take_of_length_le small], more⟩
  cut_append bs := by
    rintro ⟨rfl, more⟩
    refine ⟨(List.take_append_of_le_length (Nat.le_of_lt more)).symm, ?_⟩
    rw [List.length_append]
    omega

end Sink

open Sink

namespace Checked

/-- What a checked sink with room for `limit` bytes holds and tells when `given` has been written. A
call that is cut is reported, or it is not. -/
structure Metered (limit : Nat) (report : Option Cause) (c : Checked Bytes) (given : Bytes) :
    Prop where
  state_eq : c.state = given.take limit
  total_eq : c.total = min limit given.length
  failure_eq : c.failure =
    if limit < given.length then report.map fun cause => ⟨[.writeFailed], cause⟩ else none

theorem metered_nil (limit : Nat) (report : Option Cause) :
    Metered limit report { state := [] } [] :=
  ⟨List.take_nil.symm, (Nat.min_zero limit).symm, by simp⟩

variable {limit : Nat} {report : Option Cause} {c : Checked Bytes} {given : Bytes}

theorem Metered.write (metered : Metered limit report c given) (bs : Bytes) :
    Metered limit report (c.write (.limited limit report) bs).2 (given ++ bs) := by
  obtain ⟨state, total, failure⟩ := metered
  cases failed : c.failure with
  | some f =>
    -- The limit had been passed, and more bytes do not change what is before it.
    have more : limit < given.length := by
      rw [failed] at failure
      split at failure
      next more => exact more
      next => cases failure
    have still : limit < (given ++ bs).length := by
      rw [List.length_append]
      omega
    rw [write_of_failure _ c failed]
    refine ⟨?_, ?_, ?_⟩
    · rw [state, List.take_append_of_le_length (Nat.le_of_lt more)]
    · rw [total]
      omega
    · rw [failure, if_pos more, if_pos still]
  | none =>
    have room : limit - (given.take limit).length = limit - given.length := by
      rw [List.length_take]
      omega
    simp only [Checked.write, failed, Sink.write_limited, state, room]
    refine ⟨List.take_append.symm, ?_, ?_⟩
    · simp only [total, List.length_append]
      omega
    · rw [List.length_append]
      by_cases cut : limit - given.length < bs.length
      next => rw [if_pos cut, if_pos (by omega)]
      next =>
        rw [if_neg cut]
        by_cases more : limit < given.length
        next =>
          -- An empty call, after one that was cut without a report.
          rw [failed, if_pos more] at failure
          rw [if_pos (by omega), ← failure]
          rfl
        next =>
          rw [if_neg (by omega)]
          rfl

theorem Metered.writeAll (metered : Metered limit report c given) (calls : List Bytes) :
    Metered limit report (c.writeAll (.limited limit report) calls) (given ++ calls.flatten) := by
  induction calls generalizing c given with
  | nil => simpa using metered
  | cons bs calls ih =>
    have rest := ih (metered.write bs)
    rwa [List.append_assoc, ← List.flatten_cons] at rest

end Checked

theorem Checked.writeAll_limited (limit : Nat) (cause : Cause) (calls : List Bytes) :
    (Checked.writeAll (limited limit (some cause)) { state := [] } calls).state =
      calls.flatten.take limit ∧
    (Checked.writeAll (limited limit (some cause)) { state := [] } calls).failure =
      if limit < calls.flatten.length then some ⟨[.writeFailed], cause⟩ else none := by
  have metered := (metered_nil limit (some cause)).writeAll calls
  exact ⟨metered.state_eq, metered.failure_eq⟩

-- With a buffer the failure comes with one of the calls or with the flush behind them.
theorem Checked.writeAll_buffered (limit : Nat) (cause : Cause) (calls : List Bytes) :
    let sink := limited limit (some cause)
    let done := Checked.writeAll (Buffer.sink sink) { state := { state := [] } } calls
    done.failure = some ⟨[.writeFailed], cause⟩ ∧ limit < calls.flatten.length ∧
        done.state.state = calls.flatten.take limit ∨
      done.failure = none ∧ (done.state.flush sink).state = calls.flatten.take limit ∧
        (done.state.flush sink).fault =
          if limit < calls.flatten.length then some cause else none := by
  intro sink done
  have stops := stopsWith_limited limit cause
  have fresh : Buffer.Given (Within limit) ({ state := [] } : Buffer Bytes) [] :=
    ⟨rfl, [], within_nil limit, rfl⟩
  have ends := writeAll_of_stopsWith (Buffer.stopsWith_sink stops)
    (c := { state := { state := [] } }) fresh rfl calls
  rw [List.nil_append] at ends
  rcases ends with ⟨unfailed, given⟩ | ⟨failed, -, taken, more⟩
  · right
    rcases Buffer.flush_of_stopsWith stops given with ⟨clear, -, within⟩ | ⟨fault, taken, more⟩
    · exact ⟨unfailed, within.eq_take, by rw [clear, if_neg (Nat.not_lt.2 within.2)]⟩
    · exact ⟨unfailed, taken, by rw [fault, if_pos more]⟩
  · exact .inl ⟨failed, more, taken⟩

end StackAsm
