import StackAsm.Image.Basic
import StackAsm.Proofs.Output.Acceptance

set_option autoImplicit false

namespace StackAsm

theorem Checked.writeAll_unlimited (taken : Bytes) (count : Nat) (calls : List Bytes) :
    Checked.writeAll .unlimited ⟨taken, count, none⟩ calls =
      ⟨taken ++ calls.flatten, count + calls.flatten.length, none⟩ := by
  obtain ⟨unfailed, total, state⟩ :=
    writeAll_of_accepts Sink.accepts_unlimited (c := ⟨taken, count, none⟩) rfl rfl calls
  generalize Checked.writeAll .unlimited ⟨taken, count, none⟩ calls = after at *
  obtain ⟨stateAfter, totalAfter, failureAfter⟩ := after
  rw [mk.injEq]
  exact ⟨state, total, unfailed⟩

namespace Image

variable {σ : Type} {sink : Sink σ} {Holds : σ → Bytes → Prop}

theorem write_of_accepts (accepts : sink.Accepts Holds) {start : σ} {taken : Bytes}
    (held : Holds start taken) {is : List Instruction} (nonempty : is ≠ []) :
    ∃ after, write sink start is = (⟨(words is).length, none⟩, after) ∧
      Holds after (taken ++ bytes is) := by
  obtain ⟨unfailed, -, after⟩ := Checked.writeAll_of_accepts accepts (c := { state := start }) held
    rfl (magic :: (words is).map wordBytes)
  refine ⟨_, ?_, after⟩
  simp only [write, nonempty, ↓reduceIte, unfailed]

theorem write_unlimited {is : List Instruction} (nonempty : is ≠ []) :
    write .unlimited [] is = (⟨(words is).length, none⟩, bytes is) := by
  have fresh : ([] : Bytes) = [] := rfl
  obtain ⟨after, written, rfl⟩ := write_of_accepts Sink.accepts_unlimited fresh nonempty
  exact written

theorem words_eq_append (is : List Instruction) : words is =
    is.map Instruction.encode ++
      List.replicate ((4 - is.length % 4) % 4) (Instruction.encode .nop) := by
  rw [words, pad, List.map_append, List.map_replicate]

theorem words_unknown {ws : List UInt32} (whole : ws.length % 4 = 0) :
    words (ws.map .unknown) = ws := by
  have same : Instruction.encode ∘ .unknown = id := by
    funext w
    exact UInt32.ofNat_toNat
  rw [words_eq_append, List.length_map, whole, List.map_map, same, List.map_id]
  exact List.append_nil ws

theorem read_bytesOfWords (ws : List UInt32) : read (.ofBytes (bytesOfWords ws)) = .ok ws := by
  have header : (bytesOfWords ws).take 4 = magic := rfl
  have body : (bytesOfWords ws).drop 4 = ws.flatMap wordBytes := rfl
  have long : ¬(bytesOfWords ws).length < 4 := by simp [bytesOfWords, magic]
  simp only [read, Input.ofBytes, long, header, body, ↓reduceIte, ne_eq, not_true_eq_false]
  exact readWords_flatMap_wordBytes 4 ws

theorem length_bytesOfWords (ws : List UInt32) : (bytesOfWords ws).length = 4 + 4 * ws.length := by
  have words : (ws.flatMap wordBytes).length = 4 * ws.length := by
    induction ws with
    | nil => rfl
    | cons w ws ih =>
      rw [List.flatMap_cons, List.length_append, ih, length_wordBytes, List.length_cons]
      omega
  rw [bytesOfWords, List.length_append, words]
  rfl

theorem eq_flatMap_wordBytes_of_readWords {offset : Nat} {bs : Bytes} {ws : List UInt32}
    (done : readWords none offset bs = .ok ws) : bs = ws.flatMap wordBytes := by
  fun_induction readWords none offset bs generalizing ws with
  | case1 offset b0 b1 b2 b3 bs ih =>
    cases rest : readWords none (offset + 4) bs with
    | error f =>
      rw [rest] at done
      cases done
    | ok others =>
      rw [rest] at done
      cases done
      rw [List.flatMap_cons, wordBytes_wordOfBytes, ← ih rest]
      rfl
  | case2 =>
    cases done
    rfl
  | case3 => cases done
  | case4 offset left short other => cases other
  | case5 offset left short reported _ other => cases other

theorem read_eq_ok_iff (b : Bytes) (ws : List UInt32) :
    read (.ofBytes b) = .ok ws ↔ b = bytesOfWords ws := by
  constructor
  · intro done
    by_cases short : b.length < 4
    next => simp [read, Input.ofBytes, short] at done
    next =>
      by_cases header : b.take 4 = magic
      next =>
        simp only [read, Input.ofBytes, short, header, ↓reduceIte, ne_eq, not_true_eq_false] at done
        rw [bytesOfWords, ← header, ← eq_flatMap_wordBytes_of_readWords done, List.take_append_drop]
      next => simp [read, Input.ofBytes, short, header] at done
  · rintro rfl
    exact read_bytesOfWords ws

theorem mem_words {is : List Instruction} {w : UInt32} (member : w ∈ words is) :
    ∃ i, (i ∈ is ∨ i = .nop) ∧ w = i.encode := by
  rw [words, List.mem_map] at member
  obtain ⟨i, padded, rfl⟩ := member
  rcases List.mem_append.1 padded with own | padding
  · exact ⟨i, .inl own, rfl⟩
  · exact ⟨i, .inr (List.eq_of_mem_replicate padding), rfl⟩

end Image

open Image in
/-- Writing to a sink that takes everything and reading are inverse to each other: what is written
is an image, every image that can be read has one form, and its words can be written again. -/
theorem image_write_read_inverse {σ : Type} {sink : Sink σ} {Holds : σ → Bytes → Prop}
    (accepts : sink.Accepts Holds) {start : σ} (fresh : Holds start []) :
    (∀ is : List Instruction, is ≠ [] → ∃ (padding : Nat) (ws : List UInt32) (after : σ),
      is.length + padding = 4 * ((is.length + 3) / 4) ∧ padding < 4 ∧
      ws = is.map Instruction.encode ++ List.replicate padding (Instruction.encode .nop) ∧
      write sink start is = (⟨is.length + padding, none⟩, after) ∧
      Holds after (magic ++ ws.flatMap wordBytes) ∧
      read (.ofBytes (magic ++ ws.flatMap wordBytes)) = .ok ws) ∧
    (∀ b ws, read (.ofBytes b) = .ok ws ↔ b = magic ++ ws.flatMap wordBytes) ∧
    (∀ b c ws, read (.ofBytes b) = .ok ws → read (.ofBytes c) = .ok ws → b = c) ∧
    ∀ b ws, read (.ofBytes b) = .ok ws → ws ≠ [] → ws.length % 4 = 0 →
      ∃ after, write sink start (ws.map .unknown) = (⟨ws.length, none⟩, after) ∧ Holds after b := by
  refine ⟨?_, read_eq_ok_iff, ?_, ?_⟩
  · intro is nonempty
    obtain ⟨after, written, held⟩ := write_of_accepts accepts fresh nonempty
    have parts := words_eq_append is
    have count : (words is).length = is.length + (4 - is.length % 4) % 4 := by
      rw [parts, List.length_append, List.length_map, List.length_replicate]
    rw [count] at written
    exact ⟨_, words is, after, by omega, by omega, parts, written, held,
      read_bytesOfWords (words is)⟩
  · intro b c ws first second
    rw [read_eq_ok_iff] at first second
    rw [first, second]
  · intro b ws done nonempty whole
    rw [read_eq_ok_iff] at done
    have some : ws.map Instruction.unknown ≠ [] := by simpa using nonempty
    obtain ⟨after, written, held⟩ := write_of_accepts accepts fresh some
    rw [words_unknown whole] at written
    rw [List.nil_append, bytes, words_unknown whole, ← done] at held
    exact ⟨after, written, held⟩

theorem image_write_read_inverse_of_five :
    (∃ after, Image.write .unlimited [] [.exit 1, .dup 4, .swap 0 8, .input, .dump] =
        (⟨8, none⟩, after) ∧
      Image.read (.ofBytes after) = .ok [0x01000001, 0xC0000001, 0x02000002, 0x05000000, 0xE0000000,
        0x04000000, 0x04000000, 0x04000000]) ∧
    ∃ b, Image.read (.ofBytes b) = .ok [0xFFFFFFFF, 0, 0x10203040, 0x0F000001] ∧
      Image.write .unlimited [] [.unknown 0xFFFFFFFF, .unknown 0, .unknown 0x10203040,
        .unknown 0x0F000001] = (⟨4, none⟩, b) := by
  have fresh : ([] : Bytes) = [] := rfl
  obtain ⟨forward, exact_iff, -, back⟩ := image_write_read_inverse Sink.accepts_unlimited fresh
  constructor
  · obtain ⟨padding, ws, after, sum, -, parts, written, held, done⟩ :=
      forward [.exit 1, .dup 4, .swap 0 8, .input, .dump] (by simp)
    obtain rfl : padding = 3 := Nat.add_left_cancel sum
    subst parts held
    exact ⟨_, written, done⟩
  · have done := (exact_iff _ [0xFFFFFFFF, 0, 0x10203040, 0x0F000001]).2 rfl
    obtain ⟨after, written, held⟩ := back _ _ done (by simp) rfl
    subst held
    exact ⟨_, done, written⟩

end StackAsm
