import StackAsm.Proofs.Image.Saving
import StackAsm.Proofs.Image.Writing
import StackAsm.Proofs.Output.Loads

set_option autoImplicit false

namespace StackAsm

namespace Sink

/-- A sink that has got what it says it took, and nothing else. -/
def Honest (sink : Sink Bytes) : Prop :=
  ∀ taken bs, (sink.write taken bs).2 = taken ++ bs.take (sink.write taken bs).1.count

theorem honest_unlimited : Sink.unlimited.Honest := by
  intro taken bs
  simp [unlimited]

theorem honest_limited (limit : Nat) (report : Option Cause) : (limited limit report).Honest := by
  intro taken bs
  simp only [write_limited, ← List.take_eq_take_min, Nat.min_comm]

theorem Honest.eq_append_of_deliver {sink : Sink Bytes} (honest : sink.Honest)
    {taken content : Bytes} {loads : List Bytes}
    (through : sink.deliver taken loads = (none, content)) :
    content = taken ++ loads.flatten := by
  induction loads generalizing taken with
  | nil =>
    cases through
    rw [List.flatten_nil, List.append_nil]
  | cons bs loads ih =>
    rw [deliver] at through
    split at through
    next => cases through
    next whole =>
      have taken : bs.length ≤ (sink.write taken bs).1.count := by
        simp only [Receipt.shortfall] at whole
        split at whole
        next => cases whole
        next =>
          split at whole
          next => cases whole
          next enough => exact Nat.le_of_not_lt enough
      rw [ih through, honest, List.take_of_length_le taken, List.flatten_cons, List.append_assoc]

end Sink

theorem Buffer.flatten_loads (bs : Bytes) : (loads bs).flatten = bs := by
  fun_induction loads bs with
  | case1 bs fits => simp
  | case2 bs long ih => rw [List.flatten_cons, ih, List.take_append_drop]

namespace Image

open FileTree

variable {sink : Sink Bytes} {is : List Instruction}

theorem length_call_le {bs : Bytes} (call : bs ∈ magic :: (words is).map wordBytes) :
    bs.length ≤ Buffer.capacity := by
  rcases List.mem_cons.1 call with rfl | word
  · decide
  · obtain ⟨w, -, rfl⟩ := List.mem_map.1 word
    rw [length_wordBytes]
    decide

theorem bytes_ne_nil (is : List Instruction) : bytes is ≠ [] :=
  List.cons_ne_nil _ _

theorem writeBuffered_of_deliver (nonempty : is ≠ []) {reported : Option Cause} {content : Bytes}
    (delivered : sink.deliver [] (Buffer.loads (bytes is)) = (reported, content)) :
    ∃ result, writeBuffered sink is = (result, content) ∧
      (reported = none → result = ⟨(words is).length, none⟩) ∧
      ∀ cause, reported = some cause → ∃ f, result = ⟨0, some f⟩ ∧ f.cause = cause := by
  have small : ∀ bs ∈ magic :: (words is).map wordBytes, bs.length ≤ Buffer.capacity :=
    fun _ => length_call_le
  obtain ⟨told, loading⟩ :=
    (Buffer.loading_fresh sink []).writeAll (c := { state := { state := [] } }) rfl small
  have image : [] ++ (magic :: (words is).map wordBytes).flatten = bytes is := rfl
  rw [image] at loading
  have outcome := loading.flush (bytes_ne_nil is)
  rw [delivered] at outcome
  simp only [writeBuffered, write, nonempty, ↓reduceIte]
  generalize Checked.writeAll _ _ _ = done at told outcome ⊢
  rcases outcome with ⟨unfailed, state, fault⟩ | ⟨cause, failed, broken⟩
  · -- All calls went into the buffer, and the flush decides.
    rw [unfailed, Option.map_none] at told
    cases reported with
    | none =>
      simp only [told, fault, state]
      exact ⟨_, rfl, fun _ => rfl, by simp⟩
    | some cause =>
      simp only [told, fault, state]
      refine ⟨_, rfl, by simp, ?_⟩
      rintro _ ⟨rfl⟩
      exact ⟨_, rfl, rfl⟩
  · cases broken
    rw [failed, Option.map_some] at told
    simp only [told]
    refine ⟨_, rfl, by simp, ?_⟩
    rintro _ ⟨rfl⟩
    exact ⟨_, rfl, rfl⟩

section Outcome

variable {disk : Sink Bytes} {t : FileTree} {name : Bytes} {p : Path}

theorem saveOn_of_unable (disk : Sink Bytes)
    (unable : is = [] ∨ ∃ cause, t.writablePath name = .error cause) :
    ∃ f, saveOn disk t name is = (⟨0, some f⟩, t) := by
  by_cases empty : is = []
  next => exact ⟨_, by rw [saveOn, if_pos empty]⟩
  next =>
    obtain ⟨cause, unwritable⟩ := unable.resolve_left empty
    simp only [saveOn, empty, ↓reduceIte, unwritable]
    exact ⟨_, rfl⟩

theorem saveOn_of_broken (nonempty : is ≠ []) (writable : t.writablePath name = .ok p)
    {cause : Cause} {content : Bytes}
    (broken : (fileSink disk name (t.node? p)).deliver [] (Buffer.loads (bytes is)) =
      (some cause, content)) :
    ∃ f, saveOn disk t name is = (⟨0, some f⟩, t.erase p) ∧ f.cause = cause := by
  obtain ⟨_, written, -, reason⟩ := writeBuffered_of_deliver nonempty broken
  obtain ⟨f, rfl, same⟩ := reason cause rfl
  simp only [saveOn, nonempty, ↓reduceIte, writable, written, remove_of_writable writable]
  exact ⟨_, rfl, same⟩

theorem honest_fileSink (honest : disk.Honest) (name : Bytes) (node : Option FileNode) :
    (fileSink disk name node).Honest := by
  by_cases full : node = some .fullDevice
  next =>
    rw [full]
    exact Sink.honest_limited _ _
  next => rwa [fileSink_of_ne disk name full]

theorem saveOn_of_delivered (honest : disk.Honest) (nonempty : is ≠ [])
    (writable : t.writablePath name = .ok p) {content : Bytes}
    (through : (fileSink disk name (t.node? p)).deliver [] (Buffer.loads (bytes is)) =
      (none, content)) :
    saveOn disk t name is = (⟨(words is).length, none⟩, t.put p (.file (bytes is))) := by
  obtain ⟨_, written, done, -⟩ := writeBuffered_of_deliver nonempty through
  obtain rfl := done rfl
  have whole := (honest_fileSink honest name _).eq_append_of_deliver through
  rw [Buffer.flatten_loads, List.nil_append] at whole
  have other : t.node? p ≠ some .fullDevice := by
    intro full
    rw [full] at written
    -- A full device would have refused the first byte.
    obtain ⟨f, taken, failed⟩ := writeBuffered_of_refuses (Sink.refuses_limited_zero _) nonempty
    cases congrArg (·.1.failure) (written.symm.trans failed)
  simp only [saveOn, nonempty, ↓reduceIte, writable, written, writtenNode_of_ne _ other, whole]

end Outcome

/-- What a save can come to. Where the name can be written to, it is the disk that decides. -/
structure AllOrNothing (disk : Sink Bytes) (t : FileTree) (name : Bytes) (is : List Instruction)
    (result : Written) (after : FileTree) : Prop where
  saved : ∀ n, result = ⟨n, none⟩ → ∃ (image : Bytes) (ws : List UInt32),
    n = 4 * ((is.length + 3) / 4) ∧ write .unlimited [] is = (⟨n, none⟩, image) ∧
    after.entry name = .ok (.file image) ∧ Padded is ws ∧ load after name = .ok ws
  untouched : is = [] ∨ (∃ cause, t.writablePath name = .error cause) →
    (∃ f, result = ⟨0, some f⟩) ∧ after = t
  failed_iff : is ≠ [] → ∀ p, t.writablePath name = .ok p → ∀ cause,
    (∃ f, result = ⟨0, some f⟩ ∧ f.cause = cause) ↔
      ((fileSink disk name (t.node? p)).deliver [] (Buffer.loads (bytes is))).1 = some cause
  cleared : is ≠ [] → ∀ p, t.writablePath name = .ok p → ∀ f, result.failure = some f →
    after.node? p = none ∧ after.Vacant name
  count_of_failure : ∀ f, result.failure = some f → result.count = 0
  elsewhere : ∀ q, (∀ spot, t.locate name = .ok spot → q ≠ spot.path) → after.node? q = t.node? q

theorem allOrNothing_saveOn {disk : Sink Bytes} (honest : disk.Honest) (t : FileTree) (name : Bytes)
    (is : List Instruction) :
    AllOrNothing disk t name is (saveOn disk t name is).1 (saveOn disk t name is).2 := by
  by_cases unable : is = [] ∨ ∃ cause, t.writablePath name = .error cause
  next =>
    obtain ⟨f, done⟩ := saveOn_of_unable disk unable
    have apart (nonempty : is ≠ []) (p : Path) (writable : t.writablePath name = .ok p) :
        False := by
      obtain ⟨cause, unwritable⟩ := unable.resolve_left nonempty
      cases writable.symm.trans unwritable
    rw [done]
    exact {
      saved := nofun
      untouched := fun _ => ⟨⟨f, rfl⟩, rfl⟩
      failed_iff := fun nonempty p writable => (apart nonempty p writable).elim
      cleared := fun nonempty p writable => (apart nonempty p writable).elim
      count_of_failure := fun _ _ => rfl
      elsewhere := fun _ _ => rfl }
  next =>
    have nonempty : is ≠ [] := fun empty => unable (.inl empty)
    obtain ⟨p, writable⟩ : ∃ p, t.writablePath name = .ok p := by
      cases found : t.writablePath name with
      | error cause => exact absurd (.inr ⟨cause, found⟩) unable
      | ok p => exact ⟨p, rfl⟩
    have unique {q : Path} (again : t.writablePath name = .ok q) : p = q :=
      Except.ok.inj (writable.symm.trans again)
    cases delivered : (fileSink disk name (t.node? p)).deliver [] (Buffer.loads (bytes is)) with
    | mk reported content =>
      cases reported with
      | some cause =>
        obtain ⟨f, done, rfl⟩ := saveOn_of_broken nonempty writable delivered
        rw [done]
        exact {
          saved := nofun
          untouched := fun able => absurd able unable
          failed_iff := fun _ q again cause => by
            rw [← unique again, delivered]
            simp
          cleared := fun _ q again _ _ => by
            rw [← unique again]
            exact vacant_erase_of_writable writable
          count_of_failure := fun _ _ => rfl
          elsewhere := fun q away => node?_erase_of_elsewhere writable away }
      | none =>
        have done := saveOn_of_delivered honest nonempty writable delivered
        have image := entry_put writable (.file (bytes is))
        rw [done]
        exact {
          saved := fun n same => by
            cases same
            exact ⟨bytes is, words is, length_words is, write_unlimited nonempty, image,
              padded_words is, load_of_entry image⟩
          untouched := fun able => absurd able unable
          failed_iff := fun _ q again cause => by
            rw [← unique again, delivered]
            simp
          cleared := nofun
          count_of_failure := nofun
          elsewhere := fun q away => node?_put_of_elsewhere writable _ away }

end Image

open Image in
/-- A save leaves the whole image under its name, or nothing under it, or all as it was, whatever
the disk does with the loads of the image. -/
theorem image_save_all_or_nothing {disk : Sink Bytes} (honest : disk.Honest) (t : FileTree)
    (name : Bytes) (is : List Instruction) :
    AllOrNothing disk t name is (saveOn disk t name is).1 (saveOn disk t name is).2 ∧
    AllOrNothing .unlimited t name is (save t name is).1 (save t name is).2 :=
  ⟨allOrNothing_saveOn honest t name is, allOrNothing_saveOn Sink.honest_unlimited t name is⟩

-- An older image beside another file, a device that is full, and a directory.
def Image.shelf : FileTree :=
  ⟨[([utf8 "out"], .file (utf8 "older")), ([utf8 "kept"], .file (utf8 "kept")),
    ([utf8 "full"], .fullDevice), ([utf8 "dir"], .directory)]⟩

open Image in
-- The image takes twenty bytes. With room for ten the save fails, whether the disk says so or just
-- takes too little, and the older image is gone. Where there is nothing to save or no way to write,
-- it stays.
theorem image_save_all_or_nothing_of_half_written :
    (∃ f, (saveOn (.limited 10 (some (.device (utf8 "boom")))) shelf (utf8 "out") [.exit 1]).1 =
        ⟨0, some f⟩ ∧ f.cause = .device (utf8 "boom")) ∧
    (saveOn (.limited 10 none) shelf (utf8 "out") [.exit 1]).2.node? [utf8 "out"] = none ∧
    (saveOn (.limited 10 none) shelf (utf8 "out") [.exit 1]).2.node? [utf8 "kept"] =
      some (.file (utf8 "kept")) ∧
    (∃ ws, Padded [.exit 1] ws ∧ load (save shelf (utf8 "out") [.exit 1]).2 (utf8 "out") = .ok ws) ∧
    (save shelf (utf8 "full") [.exit 1]).2.Vacant (utf8 "full") ∧
    (save shelf (utf8 "dir") [.exit 1]).2 = shelf ∧ (save shelf (utf8 "out") []).2 = shelf := by
  have nonempty : [Instruction.exit 1] ≠ [] := by decide
  have writable : shelf.writablePath (utf8 "out") = .ok [utf8 "out"] := rfl
  have single : Buffer.loads (bytes [.exit 1]) = [bytes [.exit 1]] :=
    Buffer.loads_of_length_le (by decide)
  obtain ⟨told, -⟩ := image_save_all_or_nothing
    (Sink.honest_limited 10 (some (.device (utf8 "boom")))) shelf (utf8 "out") [.exit 1]
  obtain ⟨silent, whole⟩ :=
    image_save_all_or_nothing (Sink.honest_limited 10 none) shelf (utf8 "out") [.exit 1]
  obtain ⟨-, full⟩ := image_save_all_or_nothing Sink.honest_unlimited shelf (utf8 "full") [.exit 1]
  obtain ⟨-, dir⟩ := image_save_all_or_nothing Sink.honest_unlimited shelf (utf8 "dir") [.exit 1]
  obtain ⟨-, empty⟩ := image_save_all_or_nothing Sink.honest_unlimited shelf (utf8 "out") []
  refine ⟨?_, ?_, ?_, ?_, ?_, ?_, ?_⟩
  · exact (told.failed_iff nonempty _ writable _).2 (by rw [single]; rfl)
  · obtain ⟨f, failed, -⟩ :=
      (silent.failed_iff nonempty _ writable .shortWrite).2 (by rw [single]; rfl)
    exact (silent.cleared nonempty _ writable f (congrArg Written.failure failed)).1
  · exact silent.elsewhere [utf8 "kept"] (by
      rintro spot ⟨rfl⟩
      decide)
  · obtain ⟨-, ws, -, -, -, padded, loaded⟩ := whole.saved 4 rfl
    exact ⟨ws, padded, loaded⟩
  · obtain ⟨f, failed, -⟩ := (full.failed_iff nonempty [utf8 "full"] rfl _).2 (by rw [single]; rfl)
    exact (full.cleared nonempty [utf8 "full"] rfl f (congrArg Written.failure failed)).2
  · exact (dir.untouched (.inr ⟨_, rfl⟩)).2
  · exact (empty.untouched (.inl rfl)).2

end StackAsm
