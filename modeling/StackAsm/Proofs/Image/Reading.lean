import StackAsm.Proofs.Image.RoundTrip

set_option autoImplicit false

namespace StackAsm

namespace Image

theorem length_lt_four {left : Bytes}
    (short : ∀ b0 b1 b2 b3 bs, left = b0 :: b1 :: b2 :: b3 :: bs → False) : left.length < 4 := by
  match left with
  | [] | [_] | [_, _] | [_, _, _] => simp
  | b0 :: b1 :: b2 :: b3 :: bs => exact (short b0 b1 b2 b3 bs rfl).elim

theorem readWords_of_failure {cause : Cause} (other : cause ≠ .unexpectedEnd) (offset : Nat)
    (bs : Bytes) : readWords (some cause) offset bs = .error ⟨[.wordReadFailed], cause⟩ := by
  fun_induction readWords (some cause) offset bs with
  | case1 offset b0 b1 b2 b3 bs ih => rw [ih, Except.map]
  | case2 offset ended => cases ended
  | case3 offset left short ended => cases ended
  | case4 offset left short same => exact absurd (Option.some.inj same) other
  | case5 offset left short reported _ same => rw [Option.some.inj same]

theorem offset_of_short {left : Bytes} (short : left.length < 4) (offset : Nat) :
    offset + 4 * (left.length / 4) = offset := by
  omega

-- One word further on the offset is four more, and what is left has four bytes less.
theorem offset_of_word (b0 b1 b2 b3 : UInt8) (bs : Bytes) (offset : Nat) :
    offset + 4 * ((b0 :: b1 :: b2 :: b3 :: bs).length / 4) =
      offset + 4 + 4 * (bs.length / 4) := by
  simp only [List.length_cons]
  omega

-- A reader that reports an unexpected end is not asked whether it was inside a word.
theorem readWords_of_unexpectedEnd (offset : Nat) (bs : Bytes) :
    readWords (some .unexpectedEnd) offset bs =
      .error (.ofCause (.truncatedWord (offset + 4 * (bs.length / 4)))) := by
  fun_induction readWords (some .unexpectedEnd) offset bs with
  | case1 offset b0 b1 b2 b3 bs ih => rw [ih, offset_of_word, Except.map]
  | case2 offset ended => cases ended
  | case3 offset left short ended => cases ended
  | case4 offset left short => rw [offset_of_short (length_lt_four short)]
  | case5 offset left short reported other same => exact absurd (Option.some.inj same).symm other

theorem readWords_to_end (offset : Nat) (bs : Bytes) :
    (bs.length % 4 = 0 ∧ ∃ ws, readWords none offset bs = .ok ws) ∨
    (bs.length % 4 ≠ 0 ∧ readWords none offset bs =
      .error (.ofCause (.truncatedWord (offset + 4 * (bs.length / 4))))) := by
  fun_induction readWords none offset bs with
  | case1 offset b0 b1 b2 b3 bs ih =>
    have length : (b0 :: b1 :: b2 :: b3 :: bs).length = bs.length + 4 := rfl
    rw [offset_of_word, length, Nat.add_mod_right]
    rcases ih with ⟨whole, ws, done⟩ | ⟨ragged, failed⟩
    · exact .inl ⟨whole, _, by rw [done, Except.map]⟩
    · exact .inr ⟨ragged, by rw [failed, Except.map]⟩
  | case2 offset => exact .inl ⟨rfl, [], rfl⟩
  | case3 offset left short _ nonempty =>
    have few := length_lt_four short
    have some := List.length_pos_iff.2 nonempty
    rw [offset_of_short few]
    exact .inr ⟨by omega, rfl⟩
  | case4 offset left short other => cases other
  | case5 offset left short reported _ other => cases other

variable {p : Bytes}

theorem read_of_short (short : p.length < 4) {failure : Option Cause}
    (ended : failure = none ∨ failure = some .unexpectedEnd) :
    read ⟨p, failure⟩ = .error ⟨[.shortImage], .badMagic⟩ := by
  rcases ended with rfl | rfl <;> simp only [read, short, ↓reduceIte]

theorem read_of_short_of_failure (short : p.length < 4) {cause : Cause}
    (other : cause ≠ .unexpectedEnd) :
    read ⟨p, some cause⟩ = .error ⟨[.headerReadFailed], cause⟩ := by
  simp only [read, short, ↓reduceIte]

theorem read_of_other_header (long : 4 ≤ p.length) (other : p.take 4 ≠ magic)
    (failure : Option Cause) :
    read ⟨p, failure⟩ = .error ⟨[.foundHeader (p.take 4)], .badMagic⟩ := by
  simp only [read, Nat.not_lt.2 long, other, ne_eq, not_false_eq_true, ↓reduceIte]

theorem read_of_header (long : 4 ≤ p.length) (header : p.take 4 = magic)
    (failure : Option Cause) : read ⟨p, failure⟩ = readWords failure 4 (p.drop 4) := by
  simp only [read, Nat.not_lt.2 long, header, ne_eq, not_true_eq_false, ↓reduceIte]

structure ReadToEnd (b : Bytes) (result : Except Failure (List UInt32)) : Prop where
  badMagic_iff : (∃ f, result = .error f ∧ f.cause = .badMagic) ↔
    b.length < 4 ∨ b.take 4 ≠ magic
  failed_iff : 4 ≤ b.length → b.take 4 = magic → ((∃ f, result = .error f) ↔ b.length % 4 ≠ 0)
  truncated : 4 ≤ b.length → b.take 4 = magic → ∀ f, result = .error f →
    ∃ k, k % 4 = 0 ∧ k ≤ b.length ∧ b.length < k + 4 ∧
      f.message = utf8 "truncated word at offset " ++ Numeral.decimal k
  whole : 4 ≤ b.length → b.take 4 = magic → b.length % 4 = 0 →
    ∃ ws, result = .ok ws ∧ ws.length = (b.length - 4) / 4 ∧ b = magic ++ ws.flatMap wordBytes

/-- What becomes of `p` if the reader fails behind it. A reader can itself report a bad magic. -/
structure ReadUntil (p : Bytes) (cause : Cause) (result : Except Failure (List UInt32)) :
    Prop where
  wordless : ∀ ws, result ≠ .ok ws
  header_iff : (∃ f, result = .error f ∧ f.cause = cause ∧
    f.message = utf8 "header read failed: " ++ cause.message) ↔ p.length < 4
  badMagic_iff : (∃ f, result = .error f ∧ f.cause = .badMagic) ↔
    cause = .badMagic ∨ 4 ≤ p.length ∧ p.take 4 ≠ magic
  word_iff : (∃ f, result = .error f ∧ f.cause = cause ∧
    f.message = utf8 "word read failed: " ++ cause.message) ↔ 4 ≤ p.length ∧ p.take 4 = magic

/-- What becomes of `p` if the reader reports an unexpected end behind it: as if `p` ended inside
a word. -/
structure ReadCutShort (p : Bytes) (result : Except Failure (List UInt32)) : Prop where
  wordless : ∀ ws, result ≠ .ok ws
  badMagic_iff : (∃ f, result = .error f ∧ f.cause = .badMagic) ↔
    p.length < 4 ∨ p.take 4 ≠ magic
  short : p.length < 4 → ∃ f, result = .error f ∧
    f.message = utf8 "image too short: bad magic header"
  truncated : 4 ≤ p.length → p.take 4 = magic → ∃ f k, result = .error f ∧
    k % 4 = 0 ∧ k ≤ p.length ∧ p.length < k + 4 ∧
    f.message = utf8 "truncated word at offset " ++ Numeral.decimal k

theorem readToEnd_read (b : Bytes) : ReadToEnd b (read (.ofBytes b)) := by
  by_cases short : b.length < 4
  next =>
    have result : read (.ofBytes b) = _ := read_of_short short (.inl rfl)
    rw [result]
    exact {
      badMagic_iff := iff_of_true ⟨_, rfl, rfl⟩ (.inl short)
      failed_iff := by omega
      truncated := by omega
      whole := by omega }
  next =>
    have long := Nat.le_of_not_lt short
    by_cases header : b.take 4 = magic
    next =>
      have result : read (.ofBytes b) = _ := read_of_header long header none
      have length : (b.drop 4).length = b.length - 4 := List.length_drop
      have known : ¬(b.length < 4 ∨ b.take 4 ≠ magic) := by simp [short, header]
      rcases readWords_to_end 4 (b.drop 4) with ⟨whole, ws, done⟩ | ⟨ragged, failed⟩
      · rw [done] at result
        have image := (read_eq_ok_iff b ws).1 result
        have words : ws.length = (b.length - 4) / 4 := by
          have size := length_bytesOfWords ws
          rw [← image] at size
          omega
        rw [result]
        exact {
          badMagic_iff := iff_of_false (by simp) known
          failed_iff := fun _ _ => iff_of_false (by simp) (by omega)
          truncated := nofun
          whole := fun _ _ _ => ⟨ws, rfl, words, image⟩ }
      · rw [failed, length] at result
        rw [result]
        exact {
          badMagic_iff := iff_of_false (by simp [Failure.ofCause]) known
          failed_iff := fun _ _ => iff_of_true ⟨_, rfl⟩ (by omega)
          truncated := fun _ _ f same =>
            ⟨4 + 4 * ((b.length - 4) / 4), by omega, by omega, by omega, by
              rw [← Except.error.inj same]
              rfl⟩
          whole := by omega }
    next =>
      have result : read (.ofBytes b) = _ := read_of_other_header long header none
      rw [result]
      exact {
        badMagic_iff := iff_of_true ⟨_, rfl, rfl⟩ (.inr header)
        failed_iff := fun _ same => absurd same header
        truncated := fun _ same => absurd same header
        whole := fun _ same => absurd same header }

theorem readUntil_read (p : Bytes) {cause : Cause} (other : cause ≠ .unexpectedEnd) :
    ReadUntil p cause (read ⟨p, some cause⟩) := by
  -- The first letters of their messages tell failures apart, whatever the reader reports.
  have apart {f : Failure} {a b : UInt8} {text : Bytes} (here : f.message.head? = some a)
      (there : (text ++ cause.message).head? = some b) (different : a ≠ b) :
      ¬∃ g, (.error f : Except Failure (List UInt32)) = .error g ∧ g.cause = cause ∧
        g.message = text ++ cause.message := by
    rintro ⟨g, same, -, message⟩
    rw [← Except.error.inj same] at message
    rw [message, there] at here
    exact different (Option.some.inj here).symm
  by_cases short : p.length < 4
  next =>
    rw [read_of_short_of_failure short other]
    exact {
      wordless := nofun
      header_iff := iff_of_true ⟨_, rfl, rfl, rfl⟩ short
      badMagic_iff := by simp; omega
      word_iff := iff_of_false (apart (a := 0x68) (b := 0x77) rfl rfl (by decide)) (by omega) }
  next =>
    have long := Nat.le_of_not_lt short
    by_cases header : p.take 4 = magic
    next =>
      rw [read_of_header long header, readWords_of_failure other]
      exact {
        wordless := nofun
        header_iff := iff_of_false (apart (a := 0x77) (b := 0x68) rfl rfl (by decide)) short
        badMagic_iff := by simp [header]
        word_iff := iff_of_true ⟨_, rfl, rfl, rfl⟩ ⟨long, header⟩ }
    next =>
      rw [read_of_other_header long header]
      exact {
        wordless := nofun
        header_iff := iff_of_false (apart (a := 0x67) (b := 0x68) rfl rfl (by decide)) short
        badMagic_iff := iff_of_true ⟨_, rfl, rfl⟩ (.inr ⟨long, header⟩)
        word_iff := iff_of_false (apart (a := 0x67) (b := 0x77) rfl rfl (by decide))
          fun found => header found.2 }

theorem readCutShort_read (p : Bytes) : ReadCutShort p (read ⟨p, some .unexpectedEnd⟩) := by
  by_cases short : p.length < 4
  next =>
    rw [read_of_short short (.inr rfl)]
    exact {
      wordless := nofun
      badMagic_iff := iff_of_true ⟨_, rfl, rfl⟩ (.inl short)
      short := fun _ => ⟨_, rfl, rfl⟩
      truncated := by omega }
  next =>
    have long := Nat.le_of_not_lt short
    by_cases header : p.take 4 = magic
    next =>
      have length : (p.drop 4).length = p.length - 4 := List.length_drop
      rw [read_of_header long header, readWords_of_unexpectedEnd, length]
      exact {
        wordless := nofun
        badMagic_iff := iff_of_false (by simp [Failure.ofCause]) (by simp [short, header])
        short := fun few => absurd few short
        truncated := fun _ _ => ⟨_, 4 + 4 * ((p.length - 4) / 4), rfl, by omega, by omega,
          by omega, rfl⟩ }
    next =>
      rw [read_of_other_header long header]
      exact {
        wordless := nofun
        badMagic_iff := iff_of_true ⟨_, rfl, rfl⟩ (.inr header)
        short := fun few => absurd few short
        truncated := fun _ same => absurd same header }

end Image

open Image in
/-- Reading is exact about its input: of a reader that comes to the end, the magic and the length
decide, and of one that fails, how far it got. An unexpected end that the reader itself reports is
taken for the end of the data. -/
theorem image_read_classifies_input (b : Bytes) :
    ReadToEnd b (read (.ofBytes b)) ∧
    (∀ (count : Nat) (cause : Cause), cause ≠ .unexpectedEnd →
      ReadUntil (b.take count) cause (read (.failingAfter count cause b))) ∧
    ∀ count : Nat, ReadCutShort (b.take count) (read (.failingAfter count .unexpectedEnd b)) :=
  ⟨readToEnd_read b, fun count _ other => readUntil_read (b.take count) other,
    fun count => readCutShort_read (b.take count)⟩

open Image in
theorem image_read_classifies_input_of_torn_word :
    (∃ f, read (.ofBytes (magic ++ [1, 0, 0, 1, 2])) = .error f ∧
      f.message = utf8 "truncated word at offset 8") ∧
    (∃ f, read (.failingAfter 8 (.device (utf8 "boom")) (magic ++ [1, 0, 0, 1, 2])) = .error f ∧
      f.message = utf8 "word read failed: boom") ∧
    ∃ f, read (.failingAfter 3 (.device (utf8 "boom")) (magic ++ [1, 0, 0, 1, 2])) = .error f ∧
      f.message = utf8 "header read failed: boom" := by
  obtain ⟨ended, interrupted, -⟩ := image_read_classifies_input (magic ++ [1, 0, 0, 1, 2])
  have long : 4 ≤ (magic ++ [1, 0, 0, 1, 2]).length := by decide
  refine ⟨?_, ?_, ?_⟩
  · obtain ⟨f, failed⟩ := (ended.failed_iff long rfl).2 (by decide)
    obtain ⟨k, aligned, below, above, message⟩ := ended.truncated long rfl f failed
    have size : (magic ++ [1, 0, 0, 1, 2]).length = 9 := rfl
    obtain rfl : k = 8 := by omega
    exact ⟨f, failed, message⟩
  · obtain ⟨f, failed, -, message⟩ :=
      (interrupted 8 (.device (utf8 "boom")) (by simp)).word_iff.2 ⟨by decide, rfl⟩
    exact ⟨f, failed, message⟩
  · obtain ⟨f, failed, -, message⟩ :=
      (interrupted 3 (.device (utf8 "boom")) (by simp)).header_iff.2 (by decide)
    exact ⟨f, failed, message⟩

open Image in
/-- The one error of a reader that is lost: before the header the image counts as too short, and on
the boundary of a word as truncated. A bad magic that a reader reports is passed on. -/
theorem unexpected_end_read_as_truncation :
    (∃ f, read (.failingAfter 0 .unexpectedEnd magic) = .error f ∧ f.cause = .badMagic ∧
      f.message = utf8 "image too short: bad magic header") ∧
    ¬ReadUntil [] .unexpectedEnd (read (.failingAfter 0 .unexpectedEnd magic)) ∧
    (∃ f, read (.failingAfter 4 .unexpectedEnd magic) = .error f ∧
      f.message = utf8 "truncated word at offset 4") ∧
    ¬ReadUntil magic .unexpectedEnd (read (.failingAfter 4 .unexpectedEnd magic)) ∧
    ∃ f, read (.failingAfter 0 .badMagic magic) = .error f ∧ f.cause = .badMagic ∧
      f.message = utf8 "header read failed: bad magic header" := by
  refine ⟨⟨_, rfl, rfl, rfl⟩, ?_, ⟨_, rfl, rfl⟩, ?_, ⟨_, rfl, rfl, rfl⟩⟩
  · intro claimed
    obtain ⟨f, failed, same, -⟩ := claimed.header_iff.2 (by decide)
    cases failed
    cases same
  · intro claimed
    obtain ⟨f, failed, same, -⟩ := claimed.word_iff.2 ⟨by decide, rfl⟩
    cases failed
    cases same

end StackAsm
