import StackAsm.Command.Run
import StackAsm.Proofs.Image.Saving
import StackAsm.Proofs.Output.Limit

set_option autoImplicit false

namespace StackAsm

namespace Listing

theorem write_limited (limit : Nat) (cause : Cause) (ws : List UInt32) :
    write (.limited limit (some cause)) [] ws =
      (if limit < (text ws).length then some ⟨[.writeFailed], cause⟩ else none,
        (text ws).take limit) := by
  obtain ⟨taken, failure⟩ := Checked.writeAll_limited limit cause (parts ws)
  rw [write, taken, failure, text]

structure Delivered (limit : Nat) (cause : Cause) (text : Bytes)
    (outcome : Option Failure × Bytes) : Prop where
  bytes_eq : outcome.2 = text.take (min limit text.length)
  failed_iff : outcome.1 ≠ none ↔ limit < text.length
  message_eq : ∀ f, outcome.1 = some f →
    f.cause = cause ∧ f.message = utf8 "write failed: " ++ cause.message

theorem delivered_write (limit : Nat) (cause : Cause) (ws : List UInt32) :
    Delivered limit cause (text ws) (write (.limited limit (some cause)) [] ws) := by
  rw [write_limited]
  by_cases more : limit < (text ws).length
  next =>
    rw [if_pos more]
    refine ⟨List.take_eq_take_min, iff_of_true nofun more, ?_⟩
    intro f same
    cases same
    exact ⟨rfl, rfl⟩
  next =>
    rw [if_neg more]
    exact ⟨List.take_eq_take_min, iff_of_false (fun some => some rfl) more, nofun⟩

end Listing

theorem Command.disassembleFile_limited (limit : Nat) (cause : Cause) {t : FileTree} {name : Bytes}
    {ws : List UInt32} (loaded : Image.load t name = .ok ws) :
    disassembleFile (.limited limit (some cause)) [] t name =
      Listing.write (.limited limit (some cause)) [] ws := by
  rw [Listing.write_limited, Listing.text]
  simp only [disassembleFile, loaded, Listing.write]
  rcases Checked.writeAll_buffered limit cause (Listing.parts ws) with
    ⟨failed, more, taken⟩ | ⟨unfailed, taken, fault⟩
  · simp only [failed, more, taken, ↓reduceIte]
  · -- All calls went into the buffer, so that the flush decides.
    simp only [unfailed, taken, fault]
    by_cases more : limit < (Listing.parts ws).flatten.length
    next => simp only [more, ↓reduceIte, Option.map_some]
    next => simp only [more, ↓reduceIte, Option.map_none]

open Listing in
/-- A listing is delivered up to the limit of its sink, whatever the size of the calls. -/
theorem listing_delivered_up_to_limit (ws : List UInt32) :
    ∃ text, write .unlimited [] ws = (none, text) ∧ ∀ (limit : Nat) (cause : Cause),
      Delivered limit cause text (write (.limited limit (some cause)) [] ws) ∧
      ∀ (t : FileTree) (name : Bytes),
        t.entry name = .ok (.file (Image.magic ++ ws.flatMap wordBytes)) →
        Delivered limit cause text
          (Command.disassembleFile (.limited limit (some cause)) [] t name) := by
  have whole : write .unlimited [] ws = (none, text ws) := by
    rw [write, Checked.writeAll_unlimited, List.nil_append, text]
  refine ⟨text ws, whole, fun limit cause => ⟨delivered_write limit cause ws, ?_⟩⟩
  intro t name image
  rw [Command.disassembleFile_limited limit cause (Image.load_of_entry image)]
  exact delivered_write limit cause ws

def Command.twoWordImage : FileTree :=
  ⟨[([utf8 "two"], .file (Image.magic ++ [0x01000001, 0xE0000000].flatMap wordBytes))]⟩

open Command in
-- The listing takes 48 bytes. With room for 30 it is cut inside the second line, and with room for
-- 47 its last line feed is missing.
theorem listing_delivered_up_to_limit_of_two :
    (disassembleFile (.limited 30 (some (.device (utf8 "boom")))) [] twoWordImage (utf8 "two")).2 =
      utf8 "       0\t01000001\texit 1\n     " ∧
    (∃ f, (disassembleFile (.limited 47 (some (.device (utf8 "boom")))) [] twoWordImage
      (utf8 "two")).1 = some f ∧ f.message = utf8 "write failed: boom") ∧
    (disassembleFile (.limited 48 (some (.device (utf8 "boom")))) [] twoWordImage
      (utf8 "two")).1 = none := by
  have image : twoWordImage.entry (utf8 "two") =
      .ok (.file (Image.magic ++ [0x01000001, 0xE0000000].flatMap wordBytes)) := rfl
  obtain ⟨text, whole, delivered⟩ := listing_delivered_up_to_limit [0x01000001, 0xE0000000]
  obtain rfl : utf8 "       0\t01000001\texit 1\n       4\te0000000\tdump\n" = text :=
    congrArg Prod.snd whole
  have outcome (limit : Nat) := (delivered limit (.device (utf8 "boom"))).2 _ _ image
  refine ⟨(outcome 30).bytes_eq, ?_, ?_⟩
  · obtain ⟨f, failed⟩ := Option.ne_none_iff_exists'.1 ((outcome 47).failed_iff.2 (by decide))
    exact ⟨f, failed, ((outcome 47).message_eq f failed).2⟩
  · exact Decidable.not_not.1 (mt (outcome 48).failed_iff.1 (by decide))

end StackAsm
