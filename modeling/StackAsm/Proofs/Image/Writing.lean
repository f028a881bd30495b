import StackAsm.Proofs.Image.RoundTrip
import StackAsm.Proofs.Output.Limit

set_option autoImplicit false

namespace StackAsm

namespace Image

theorem length_words (is : List Instruction) :
    (words is).length = 4 * ((is.length + 3) / 4) := by
  rw [words_eq_append, List.length_append, List.length_map, List.length_replicate]
  omega

theorem write_limited (limit : Nat) (cause : Cause) {is : List Instruction} (nonempty : is ≠ []) :
    write (.limited limit (some cause)) [] is =
      (if limit < (bytes is).length then ⟨0, some ⟨[.writeFailed], cause⟩⟩
        else ⟨(words is).length, none⟩, (bytes is).take limit) := by
  obtain ⟨taken, failure⟩ := Checked.writeAll_limited limit cause
    (magic :: (words is).map wordBytes)
  have image : (magic :: (words is).map wordBytes).flatten = bytes is := rfl
  rw [image] at taken failure
  simp only [write, nonempty, ↓reduceIte, failure, taken]
  by_cases more : limit < (bytes is).length
  next => simp only [more, ↓reduceIte]
  next => simp only [more, ↓reduceIte]

end Image

open Image in
/-- An image is written up to the limit of its sink. -/
theorem image_written_up_to_limit (is : List Instruction) (limit : Nat) (cause : Cause) :
    (is ≠ [] → ∃ (n : Nat) (image : Bytes), n = 4 * ((is.length + 3) / 4) ∧
      write .unlimited [] is = (⟨n, none⟩, image) ∧ image.length = 4 + 4 * n ∧
      (write (.limited limit (some cause)) [] is).2 = image.take (min limit (4 + 4 * n)) ∧
      ((write (.limited limit (some cause)) [] is).1 = ⟨n, none⟩ ↔ 4 + 4 * n ≤ limit) ∧
      (limit < 4 + 4 * n → ∃ f, (write (.limited limit (some cause)) [] is).1 = ⟨0, some f⟩ ∧
        f.cause = cause ∧ f.message = utf8 "write failed: " ++ cause.message)) ∧
    write (.limited limit (some cause)) [] [] = (⟨0, some (.ofCause .emptyProgram)⟩, []) := by
  refine ⟨fun nonempty => ?_, rfl⟩
  have size : (bytes is).length = 4 + 4 * (words is).length := length_bytesOfWords (words is)
  rw [write_limited limit cause nonempty]
  refine ⟨(words is).length, bytes is, length_words is, write_unlimited nonempty, size, ?_, ?_, ?_⟩
  · rw [← size, ← List.take_eq_take_min]
  · rw [← size]
    by_cases more : limit < (bytes is).length
    next => simp [more]
    next => simp [more, Nat.le_of_not_lt more]
  · intro more
    rw [← size] at more
    rw [if_pos more]
    exact ⟨_, rfl, rfl, rfl⟩

open Image in
theorem image_written_up_to_limit_inside_word :
    (∃ f, write (.limited 10 (some (.device (utf8 "boom")))) []
        [.exit 1, .dup 4, .swap 0 8, .input, .dump] =
          (⟨0, some f⟩, magic ++ wordBytes 0x01000001 ++ [0x01, 0x00]) ∧
      f.message = utf8 "write failed: boom") ∧
    (write (.limited 36 (some (.device (utf8 "boom")))) []
      [.exit 1, .dup 4, .swap 0 8, .input, .dump]).1 = ⟨8, none⟩ := by
  have written (limit : Nat) := (image_written_up_to_limit
    [.exit 1, .dup 4, .swap 0 8, .input, .dump] limit (.device (utf8 "boom"))).1 (by simp)
  constructor
  · obtain ⟨n, image, rfl, whole, -, taken, -, failed⟩ := written 10
    obtain ⟨f, reported, -, message⟩ := failed (by decide)
    obtain rfl : bytes [.exit 1, .dup 4, .swap 0 8, .input, .dump] = image :=
      congrArg Prod.snd whole
    exact ⟨f, Prod.ext reported taken, message⟩
  · obtain ⟨n, image, rfl, -, -, -, done, -⟩ := written 36
    exact done.2 (by decide)

end StackAsm
