import StackAsm.Output.Buffer

set_option autoImplicit false

namespace StackAsm

variable {σ : Type}

/-- A sink that takes every write call whole. `Holds` tells of a state which bytes it has taken. -/
def Sink.Accepts (sink : Sink σ) (Holds : σ → Bytes → Prop) : Prop :=
  ∀ state taken bs, Holds state taken →
    (sink.write state bs).1 = ⟨bs.length, none⟩ ∧ Holds (sink.write state bs).2 (taken ++ bs)

def Sink.Refuses (sink : Sink σ) : Prop :=
  ∀ state bs, bs ≠ [] → (sink.write state bs).1.fault ≠ none

theorem Sink.accepts_unlimited : Sink.unlimited.Accepts (· = ·) := by
  rintro state taken bs rfl
  exact ⟨rfl, rfl⟩

theorem Sink.refuses_limited_zero (cause : Cause) : (Sink.limited 0 (some cause)).Refuses := by
  intro state bs nonempty
  simp [limited, nonempty]

def Sink.Faithful (sink : Sink Bytes) : Prop :=
  ∀ taken bs, (sink.write taken bs).1.fault = none → (sink.write taken bs).2 = taken ++ bs

theorem Sink.faithful_unlimited : Sink.unlimited.Faithful :=
  fun _ _ _ => rfl

theorem Sink.faithful_limited (limit : Nat) (cause : Cause) :
    (Sink.limited limit (some cause)).Faithful := by
  intro taken bs unfailed
  simp only [limited] at unfailed ⊢
  split at unfailed
  next fits => rw [if_pos fits]
  next => cases unfailed

section Stopping

/-- A sink that takes write calls whole until one fails with `cause`. `Holds` tells which bytes a
sink has been given that has not failed yet, and `Cut` tells it of a sink that has. -/
structure Sink.StopsWith (sink : Sink σ) (cause : Cause) (Holds Cut : σ → Bytes → Prop) :
    Prop where
  write : ∀ {state : σ} {given : Bytes} (bs : Bytes), Holds state given →
    (sink.write state bs).1 = ⟨bs.length, none⟩ ∧ Holds (sink.write state bs).2 (given ++ bs) ∨
    (sink.write state bs).1.fault = some cause ∧ Cut (sink.write state bs).2 (given ++ bs)
  cut_append : ∀ {state : σ} {given : Bytes} (bs : Bytes), Cut state given → Cut state (given ++ bs)

variable {sink : Sink σ} {cause : Cause} {Holds Cut : σ → Bytes → Prop}

theorem Checked.writeAll_of_stopsWith (stops : sink.StopsWith cause Holds Cut) {c : Checked σ}
    {given : Bytes} (held : Holds c.state given) (unfailed : c.failure = none)
    (calls : List Bytes) :
    (c.writeAll sink calls).failure = none ∧
      Holds (c.writeAll sink calls).state (given ++ calls.flatten) ∨
    (c.writeAll sink calls).failure = some ⟨[.writeFailed], cause⟩ ∧
      Cut (c.writeAll sink calls).state (given ++ calls.flatten) := by
  induction calls generalizing c given with
  | nil => simpa using .inl ⟨unfailed, held⟩
  | cons bs calls ih =>
    have state : (c.write sink bs).2.state = (sink.write c.state bs).2 := by
      simp only [write, unfailed]
    rw [writeAll_cons, List.flatten_cons, ← List.append_assoc]
    rcases stops.write bs held with ⟨receipt, after⟩ | ⟨fault, cut⟩
    · have still : (c.write sink bs).2.failure = none := by
        simp only [write, unfailed, receipt, Option.map_none]
      rw [← state] at after
      exact ih after still
    · -- The failure sticks, so that the calls left do not reach the sink.
      have failed : (c.write sink bs).2.failure = some ⟨[.writeFailed], cause⟩ := by
        simp only [write, unfailed, fault, Option.map_some]
      rw [writeAll_of_failure sink _ failed, state]
      exact .inr ⟨failed, stops.cut_append _ cut⟩

namespace Buffer

def Given (Holds : σ → Bytes → Prop) (b : Buffer σ) (given : Bytes) : Prop :=
  b.fault = none ∧ ∃ taken, Holds b.state taken ∧ taken ++ b.pending = given

def Lost (cause : Cause) (Cut : σ → Bytes → Prop) (b : Buffer σ) (given : Bytes) : Prop :=
  b.fault = some cause ∧ Cut b.state given

theorem flush_of_stopsWith (stops : sink.StopsWith cause Holds Cut) {b : Buffer σ} {given : Bytes}
    (held : Given Holds b given) :
    ((b.flush sink).fault = none ∧ (b.flush sink).pending = [] ∧
      Holds (b.flush sink).state given) ∨ Lost cause Cut (b.flush sink) given := by
  obtain ⟨state, pending, fault⟩ := b
  obtain ⟨rfl, taken, held, rfl⟩ := held
  cases pending with
  | nil =>
    rw [List.append_nil]
    exact .inl ⟨rfl, rfl, held⟩
  | cons byte pending =>
    rcases stops.write (byte :: pending) held with ⟨receipt, after⟩ | ⟨fault, cut⟩
    · left
      simp only [flush, receipt, Nat.lt_irrefl, ↓reduceIte, true_and]
      exact after
    · right
      simp only [Lost, flush, fault, true_and]
      exact cut

theorem refill_of_stopsWith (stops : sink.StopsWith cause Holds Cut) {state : σ} {given : Bytes}
    (held : Holds state given) (bs : Bytes) :
    Given Holds (refill sink state bs) (given ++ bs) ∨
      Lost cause Cut (refill sink state bs) (given ++ bs) := by
  rw [refill]
  split
  next => exact .inl ⟨rfl, given, held, rfl⟩
  next large =>
    rcases stops.write bs held with ⟨receipt, after⟩ | ⟨fault, cut⟩
    · left
      have some : bs.length ≠ 0 := by omega
      have none : ([] : Bytes).length ≤ capacity := Nat.zero_le _
      simp only [receipt, some, ↓reduceIte, List.drop_length, refill_of_length_le none]
      exact ⟨rfl, _, after, List.append_nil _⟩
    · right
      simp only [Lost, fault, true_and]
      exact cut

theorem add_of_stopsWith (stops : sink.StopsWith cause Holds Cut) {b : Buffer σ} {given : Bytes}
    (held : Given Holds b given) (bs : Bytes) :
    Given Holds (b.add sink bs) (given ++ bs) ∨ Lost cause Cut (b.add sink bs) (given ++ bs) := by
  obtain ⟨state, pending, fault⟩ := b
  obtain ⟨rfl, taken, through, rfl⟩ := id held
  simp only [add]
  split
  next => exact .inl ⟨rfl, taken, through, (List.append_assoc ..).symm⟩
  next =>
    split
    next empty =>
      rw [empty, List.append_nil]
      exact refill_of_stopsWith stops through bs
    next =>
      -- The first part fills the buffer up and is flushed, the second goes into the empty buffer.
      generalize capacity - pending.length = room
      have filled : Given Holds ⟨state, pending ++ bs.take room, none⟩
          (taken ++ pending ++ bs.take room) :=
        ⟨rfl, taken, through, (List.append_assoc ..).symm⟩
      have parts : taken ++ pending ++ bs = taken ++ pending ++ bs.take room ++ bs.drop room := by
        rw [List.append_assoc _ (bs.take room), List.take_append_drop]
      rw [parts]
      rcases flush_of_stopsWith stops filled with ⟨clear, -, after⟩ | ⟨fault, cut⟩
      · rw [clear]
        exact refill_of_stopsWith stops after (bs.drop room)
      · rw [fault]
        exact .inr ⟨fault, stops.cut_append _ cut⟩

theorem stopsWith_sink (stops : sink.StopsWith cause Holds Cut) :
    (Buffer.sink sink).StopsWith cause (Given Holds) (Lost cause Cut) where
  write {b given} bs held := by
    rcases add_of_stopsWith stops held bs with after | lost
    · left
      simp only [Buffer.sink, after.1, Option.isSome_none, Bool.false_eq_true, ↓reduceIte, true_and]
      exact after
    · exact .inr ⟨lost.1, lost⟩
  cut_append bs lost := ⟨lost.1, stops.cut_append bs lost.2⟩

end Buffer

end Stopping

section Accepting

variable {sink : Sink σ} {Holds : σ → Bytes → Prop}

theorem Checked.write_of_accepts (accepts : sink.Accepts Holds) {c : Checked σ} {taken : Bytes}
    (held : Holds c.state taken) (unfailed : c.failure = none) (bs : Bytes) :
    (c.write sink bs).2.failure = none ∧ (c.write sink bs).2.total = c.total + bs.length ∧
      Holds (c.write sink bs).2.state (taken ++ bs) := by
  obtain ⟨receipt, after⟩ := accepts c.state taken bs held
  simp only [write, unfailed, receipt, Option.map_none, true_and]
  exact after

theorem Checked.writeAll_of_accepts (accepts : sink.Accepts Holds) {c : Checked σ} {taken : Bytes}
    (held : Holds c.state taken) (unfailed : c.failure = none) (calls : List Bytes) :
    (c.writeAll sink calls).failure = none ∧
      (c.writeAll sink calls).total = c.total + calls.flatten.length ∧
      Holds (c.writeAll sink calls).state (taken ++ calls.flatten) := by
  induction calls generalizing c taken with
  | nil => simpa using ⟨unfailed, held⟩
  | cons bs calls ih =>
    obtain ⟨still, count, after⟩ := write_of_accepts accepts held unfailed bs
    obtain ⟨unfailed, total, last⟩ := ih after still
    rw [writeAll_cons, List.flatten_cons, List.length_append, ← Nat.add_assoc, ← count,
      ← List.append_assoc]
    exact ⟨unfailed, total, last⟩

theorem Sink.Accepts.stopsWith (accepts : sink.Accepts Holds) (cause : Cause) :
    sink.StopsWith cause Holds fun _ _ => False where
  write bs held := .inl (accepts _ _ bs held)
  cut_append _ := False.elim

theorem Buffer.flush_of_accepts (accepts : sink.Accepts Holds) {b : Buffer σ} {given : Bytes}
    (held : Given Holds b given) :
    (b.flush sink).fault = none ∧ (b.flush sink).pending = [] ∧
      Holds (b.flush sink).state given :=
  (flush_of_stopsWith (accepts.stopsWith .shortWrite) held).resolve_right fun lost => lost.2

theorem Buffer.accepts_sink (accepts : sink.Accepts Holds) :
    (Buffer.sink sink).Accepts (Given Holds) :=
  fun _ _ bs held =>
    ((stopsWith_sink (accepts.stopsWith .shortWrite)).write bs held).resolve_right
      fun lost => lost.2.2

end Accepting

namespace Buffer

variable {sink : Sink σ}

-- Whether a buffer has failed, or has to fail if its sink takes nothing.
def Doomed (b : Buffer σ) : Prop :=
  b.fault ≠ none ∨ b.pending ≠ []

theorem flush_of_refuses (refuses : sink.Refuses) {b : Buffer σ} (doomed : b.Doomed) :
    (b.flush sink).fault ≠ none := by
  obtain ⟨state, pending, fault⟩ := b
  cases fault with
  | some cause => simp [flush]
  | none =>
    cases pending with
    | nil => simp [Doomed] at doomed
    | cons byte pending =>
      have refused := refuses state (byte :: pending) (List.cons_ne_nil _ _)
      cases reported : (sink.write state (byte :: pending)).1.fault with
      | none => exact absurd reported refused
      | some cause => simp [flush, reported]

theorem doomed_refill (refuses : sink.Refuses) (state : σ) {bs : Bytes} (nonempty : bs ≠ []) :
    (refill sink state bs).Doomed := by
  rw [refill]
  split
  next => exact .inr nonempty
  next =>
    have refused := refuses state bs nonempty
    cases reported : (sink.write state bs).1.fault with
    | none => exact absurd reported refused
    | some cause => exact .inl (by simp [reported])

theorem doomed_add (refuses : sink.Refuses) {b : Buffer σ} {bs : Bytes}
    (bytes : b.Doomed ∨ bs ≠ []) : (b.add sink bs).Doomed := by
  obtain ⟨state, pending, fault⟩ := b
  cases fault with
  | some cause => exact .inl (by simp [add])
  | none =>
    have some : pending ++ bs ≠ [] := by
      intro none
      rw [List.append_eq_nil_iff] at none
      simp [Doomed, none] at bytes
    simp only [add]
    split
    next => exact .inr some
    next =>
      split
      next empty =>
        rw [empty, List.nil_append] at some
        exact doomed_refill refuses _ some
      next nonempty =>
        generalize capacity - pending.length = room
        have filled : Doomed (⟨state, pending ++ bs.take room, none⟩ : Buffer σ) :=
          .inr (List.append_ne_nil_of_left_ne_nil nonempty _)
        have failed := flush_of_refuses refuses filled
        cases reported : (flush sink ⟨state, pending ++ bs.take room, none⟩).fault with
        | none => exact absurd reported failed
        | some cause => exact .inl failed

theorem doomed_writeAll (refuses : sink.Refuses) {c : Checked (Buffer σ)} (doomed : c.state.Doomed)
    (calls : List Bytes) : (c.writeAll (Buffer.sink sink) calls).state.Doomed := by
  induction calls generalizing c with
  | nil => exact doomed
  | cons bs calls ih =>
    rw [Checked.writeAll_cons]
    apply ih
    cases failed : c.failure with
    | some f => rwa [Checked.write_of_failure _ c failed]
    | none =>
      simp only [Checked.write, failed]
      exact doomed_add refuses (.inl doomed)

end Buffer

end StackAsm
