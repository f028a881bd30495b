import StackAsm.Output.Buffer

set_option autoImplicit false

/-!
What a buffer writes to the sink behind it. If no call is longer than the buffer, the bytes go out
in loads: full ones, each when the next byte comes, and what is left when the buffer is flushed. So
writing through a buffer comes to the same as handing the loads to the sink one after the other,
up to the first that is not taken whole.
-/

namespace StackAsm

variable {σ : Type}

-- Why a call counts as failed: as reported, or because too few bytes were taken.
def Receipt.shortfall (r : Receipt) (bs : Bytes) : Option Cause :=
  match r.fault with
  | some cause => some cause
  | none => if r.count < bs.length then some .shortWrite else none

/-- Hands some loads to a sink and stops at the first that is not taken whole. -/
def Sink.deliver (sink : Sink σ) (state : σ) : List Bytes → Option Cause × σ
  | [] => (none, state)
  | bs :: rest =>
    match (sink.write state bs).1.shortfall bs with
    | some cause => (some cause, (sink.write state bs).2)
    | none => deliver sink (sink.write state bs).2 rest

namespace Sink

variable {sink : Sink σ} {start state : σ} {front : List Bytes}

theorem deliver_append_of_none (through : sink.deliver start front = (none, state))
    (back : List Bytes) : sink.deliver start (front ++ back) = sink.deliver state back := by
  induction front generalizing start with
  | nil =>
    cases through
    rfl
  | cons bs front ih =>
    rw [List.cons_append, deliver]
    rw [deliver] at through
    split at through
    next => cases through
    next => exact ih through

theorem deliver_append_of_some {cause : Cause}
    (broken : sink.deliver start front = (some cause, state)) (back : List Bytes) :
    sink.deliver start (front ++ back) = (some cause, state) := by
  induction front generalizing start with
  | nil => cases broken
  | cons bs front ih =>
    rw [List.cons_append, deliver]
    rw [deliver] at broken
    split at broken
    next => exact broken
    next => exact ih broken

end Sink

namespace Buffer

def loads (bs : Bytes) : List Bytes :=
  if bs.length ≤ capacity then [bs] else bs.take capacity :: loads (bs.drop capacity)
termination_by bs.length
decreasing_by
  rw [List.length_drop]
  simp only [capacity] at *
  omega

def AllFull (front : List Bytes) : Prop :=
  ∀ load ∈ front, load.length = capacity

theorem AllFull.concat {front : List Bytes} (full : AllFull front) {load : Bytes}
    (size : load.length = capacity) : AllFull (front ++ [load]) := by
  intro l member
  rcases List.mem_append.1 member with earlier | last
  · exact full l earlier
  · rw [List.mem_singleton.1 last, size]

theorem loads_of_length_le {bs : Bytes} (fits : bs.length ≤ capacity) : loads bs = [bs] := by
  rw [loads, if_pos fits]

theorem loads_flatten_append {front : List Bytes} (full : AllFull front) {rest : Bytes}
    (more : rest ≠ []) : loads (front.flatten ++ rest) = front ++ loads rest := by
  induction front with
  | nil => rfl
  | cons load front ih =>
    have size : load.length = capacity := full load List.mem_cons_self
    have later := ih fun l member => full l (List.mem_cons_of_mem _ member)
    have long : ¬(load ++ (front.flatten ++ rest)).length ≤ capacity := by
      have some := List.length_pos_iff.2 more
      rw [List.length_append, List.length_append]
      omega
    rw [List.flatten_cons, List.append_assoc, loads, if_neg long, ← size, List.take_left,
      List.drop_left, later, List.cons_append]

theorem flush_eq_deliver (sink : Sink σ) (state : σ) {pending : Bytes} (some : pending ≠ []) :
    ∃ left, (⟨state, pending, none⟩ : Buffer σ).flush sink =
      ⟨(sink.deliver state [pending]).2, left, (sink.deliver state [pending]).1⟩ ∧
      ((sink.deliver state [pending]).1 = none → left = []) := by
  cases pending with
  | nil => exact absurd rfl some
  | cons byte pending =>
    simp only [flush, Sink.deliver, Receipt.shortfall]
    cases (sink.write state (byte :: pending)).1.fault with
    | some cause => exact ⟨_, rfl, by simp⟩
    | none =>
      dsimp only
      by_cases short : (sink.write state (byte :: pending)).1.count < (byte :: pending).length
      next =>
        simp only [short, ↓reduceIte]
        exact ⟨_, rfl, by simp⟩
      next =>
        simp only [short, ↓reduceIte]
        exact ⟨[], rfl, fun _ => rfl⟩

/-- A buffer that has been given some bytes. Either the full loads have gone through and the rest is
pending, which is never nothing behind a load, or a load has failed and there is more behind it. -/
inductive Loading (sink : Sink σ) (start : σ) : Buffer σ → Bytes → Prop where
  | sound {front : List Bytes} {state : σ} {pending : Bytes} (full : AllFull front)
    (through : sink.deliver start front = (none, state)) (fits : pending.length ≤ capacity)
    (behind : front ≠ [] → pending ≠ []) :
    Loading sink start ⟨state, pending, none⟩ (front.flatten ++ pending)
  | failed {front : List Bytes} {state : σ} {cause : Cause} (full : AllFull front)
    (broken : sink.deliver start front = (some cause, state)) (left : Bytes) {rest : Bytes}
    (more : rest ≠ []) :
    Loading sink start ⟨state, left, some cause⟩ (front.flatten ++ rest)

variable {sink : Sink σ} {start : σ}

theorem Loading.add {b : Buffer σ} {given : Bytes} (loading : Loading sink start b given)
    {bs : Bytes} (small : bs.length ≤ capacity) :
    Loading sink start (b.add sink bs) (given ++ bs) := by
  cases loading with
  | failed full broken left more =>
    rw [List.append_assoc]
    exact .failed full broken left (List.append_ne_nil_of_left_ne_nil more bs)
  | @sound front state pending full through fits behind =>
    simp only [Buffer.add]
    split
    next room =>
      rw [List.append_assoc]
      refine .sound full through ?_ fun loaded =>
        List.append_ne_nil_of_left_ne_nil (behind loaded) bs
      rw [List.length_append]
      omega
    next crowded =>
      -- An empty buffer has room for the call, so that there is something to fill up.
      have some : pending ≠ [] := by
        rintro rfl
        exact crowded small
      rw [if_neg some]
      generalize room : capacity - pending.length = n at crowded ⊢
      have size : (pending ++ bs.take n).length = capacity := by
        rw [List.length_append, List.length_take]
        omega
      have more : bs.drop n ≠ [] := by
        rw [ne_eq, List.drop_eq_nil_iff]
        exact crowded
      have parts : front.flatten ++ pending ++ bs =
          (front ++ [pending ++ bs.take n]).flatten ++ bs.drop n := by
        simp [List.take_append_drop]
      have loaded : pending ++ bs.take n ≠ [] := List.append_ne_nil_of_left_ne_nil some _
      obtain ⟨left, flushed, clear⟩ := flush_eq_deliver sink state loaded
      have onward := Sink.deliver_append_of_none through [pending ++ bs.take n]
      rw [flushed, parts]
      cases outcome : sink.deliver state [pending ++ bs.take n] with
      | mk reported after =>
        rw [outcome] at onward clear
        cases reported with
        | some cause => exact .failed (full.concat size) onward left more
        | none =>
          have short : (bs.drop n).length ≤ capacity := by
            rw [List.length_drop]
            omega
          simp only [refill_of_length_le short]
          exact .sound (full.concat size) onward short fun _ => more

theorem Loading.writeAll {c : Checked (Buffer σ)} {given : Bytes}
    (told : c.failure = c.state.fault.map fun cause => ⟨[.writeFailed], cause⟩)
    (loading : Loading sink start c.state given) {calls : List Bytes}
    (small : ∀ bs ∈ calls, bs.length ≤ capacity) :
    let done := c.writeAll (Buffer.sink sink) calls
    done.failure = done.state.fault.map (fun cause => ⟨[.writeFailed], cause⟩) ∧
      Loading sink start done.state (given ++ calls.flatten) := by
  induction calls generalizing c given with
  | nil => simpa using ⟨told, loading⟩
  | cons bs calls ih =>
    rw [List.forall_mem_cons] at small
    have added := loading.add small.1
    rw [List.flatten_cons, ← List.append_assoc, Checked.writeAll_cons]
    cases failed : c.failure with
    | none =>
      have state : (c.write (Buffer.sink sink) bs).2.state = c.state.add sink bs := by
        simp only [Checked.write, failed, Buffer.sink]
      rw [← state] at added
      refine ih ?_ added small.2
      simp only [Checked.write, failed, Buffer.sink]
    | some f =>
      -- The buffer has failed too, and takes nothing more either.
      rw [Checked.write_of_failure _ c failed]
      refine ih told ?_ small.2
      cases fault : c.state.fault with
      | none => simp [fault, failed] at told
      | some cause => simpa only [Buffer.add, fault] using added

theorem Loading.flush {b : Buffer σ} {given : Bytes} (loading : Loading sink start b given)
    (nonempty : given ≠ []) :
    (b.fault = none ∧ (b.flush sink).state = (sink.deliver start (loads given)).2 ∧
      (b.flush sink).fault = (sink.deliver start (loads given)).1) ∨
    ∃ cause, b.fault = some cause ∧ sink.deliver start (loads given) = (some cause, b.state) := by
  cases loading with
  | failed full broken left more =>
    rw [loads_flatten_append full more]
    exact .inr ⟨_, rfl, Sink.deliver_append_of_some broken _⟩
  | @sound front state pending full through fits behind =>
    have pends : pending ≠ [] := by
      rintro rfl
      by_cases loaded : front = []
      next => exact nonempty (by rw [loaded, List.flatten_nil, List.nil_append])
      next => exact behind loaded rfl
    obtain ⟨left, flushed, -⟩ := flush_eq_deliver sink state pends
    rw [loads_flatten_append full pends, loads_of_length_le fits,
      Sink.deliver_append_of_none through, flushed]
    exact .inl ⟨rfl, rfl, rfl⟩

theorem loading_fresh (sink : Sink σ) (start : σ) : Loading sink start { state := start } [] :=
  @Loading.sound σ sink start [] start [] nofun rfl (Nat.zero_le _) fun loaded => absurd rfl loaded

end Buffer

end StackAsm
