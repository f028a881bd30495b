import StackAsm.Source.Line

set_option autoImplicit false

namespace StackAsm

open Ascii Utf8

/-- A visible ASCII byte that starts no comment, delimits no literal and ends no label. -/
def isPlain (b : UInt8) : Bool :=
  0x21 ≤ b && b ≤ 0x7E && b != doubleQuote && b != numberSign && b != colon

def isToken (bs : Bytes) : Bool :=
  bs != [] && bs.all isPlain

def spaced (ts : List Bytes) : Bytes :=
  [space].intercalate ts

namespace Utf8

def Piece.ofByte (b : UInt8) : Piece :=
  .char (Char.ofNat b.toNat)

theorem utf8EncodeChar_ofNat : ∀ n : Fin 0x80,
    String.utf8EncodeChar (Char.ofNat n) = [UInt8.ofNat n] := by
  decide

theorem bytes_ofByte {b : UInt8} (ascii : b < 0x80) : (Piece.ofByte b).bytes = [b] := by
  have encoded := utf8EncodeChar_ofNat ⟨b.toNat, UInt8.lt_iff_toNat_lt.1 ascii⟩
  rwa [UInt8.ofNat_toNat] at encoded

theorem pieces_cons {b : UInt8} (ascii : b < 0x80) (bs : Bytes) :
    pieces (b :: bs) = .ofByte b :: pieces bs := by
  have front := pieces_char_append (Char.ofNat b.toNat) bs
  have encoded : String.utf8EncodeChar (Char.ofNat b.toNat) = [b] := bytes_ofByte ascii
  rwa [encoded] at front

theorem pieces_append {xs : Bytes} (ascii : ∀ b ∈ xs, b < 0x80) (ys : Bytes) :
    pieces (xs ++ ys) = xs.map Piece.ofByte ++ pieces ys := by
  induction xs with
  | nil => rfl
  | cons b xs ih =>
    rw [List.forall_mem_cons] at ascii
    rw [List.cons_append, pieces_cons ascii.1, ih ascii.2, List.map_cons, List.cons_append]

theorem pieces_of_ascii {bs : Bytes} (ascii : ∀ b ∈ bs, b < 0x80) :
    pieces bs = bs.map Piece.ofByte := by
  have whole := pieces_append ascii []
  rwa [List.append_nil, pieces_nil, List.append_nil] at whole

theorem ofPieces_map_ofByte {bs : Bytes} (ascii : ∀ b ∈ bs, b < 0x80) :
    ofPieces (bs.map Piece.ofByte) = bs := by
  rw [← pieces_of_ascii ascii, ofPieces_pieces]

end Utf8

theorem forall_byte {motive : UInt8 → Prop} (each : ∀ n : Fin 0x100, motive (UInt8.ofNat n))
    (b : UInt8) : motive b := by
  have here := each ⟨b.toNat, b.toNat_lt⟩
  rwa [UInt8.ofNat_toNat] at here

theorem ascii_of_isPlain : ∀ b, isPlain b → b < 0x80 :=
  forall_byte (by decide +kernel)

theorem isBlank_of_isPlain : ∀ b, isPlain b → (Piece.ofByte b).isBlank = false :=
  forall_byte (by decide +kernel)

theorem isPlain_of_isToken {t : Bytes} (token : isToken t) : ∀ b ∈ t, isPlain b := by
  simp only [isToken, Bool.and_eq_true, List.all_eq_true] at token
  exact token.2

theorem ne_nil_of_isToken {t : Bytes} (token : isToken t) : t ≠ [] := by
  simp only [isToken, Bool.and_eq_true, bne_iff_ne] at token
  exact token.1

theorem isToken_append {s t : Bytes} (plain : ∀ b ∈ s, isPlain b) (token : isToken t) :
    isToken (s ++ t) := by
  simp only [isToken, Bool.and_eq_true, bne_iff_ne, List.all_eq_true]
  refine ⟨by simp [ne_nil_of_isToken token], ?_⟩
  intro b member
  rcases List.mem_append.1 member with front | rear
  · exact plain b front
  · exact isPlain_of_isToken token b rear

theorem spaced_singleton (t : Bytes) : spaced [t] = t :=
  List.intercalate_singleton

theorem spaced_cons_cons (t u : Bytes) (ts : List Bytes) :
    spaced (t :: u :: ts) = t ++ space :: spaced (u :: ts) := by
  simp [spaced, List.intercalate_cons_cons]

theorem mem_spaced {ts : List Bytes} {b : UInt8} (member : b ∈ spaced ts) :
    b = space ∨ ∃ t ∈ ts, b ∈ t := by
  induction ts with
  | nil => cases member
  | cons t ts ih =>
    cases ts with
    | nil => exact .inr ⟨t, by simp, by rwa [spaced_singleton] at member⟩
    | cons u ts =>
      rw [spaced_cons_cons, List.mem_append, List.mem_cons] at member
      rcases member with here | isSpace | later
      · exact .inr ⟨t, by simp, here⟩
      · exact .inl isSpace
      · rcases ih later with isSpace | ⟨v, among, inside⟩
        · exact .inl isSpace
        · exact .inr ⟨v, by simp [among], inside⟩

theorem ascii_of_mem_spaced {ts : List Bytes} (tokens : ∀ t ∈ ts, isToken t) :
    ∀ b ∈ spaced ts, b < 0x80 := by
  intro b member
  rcases mem_spaced member with rfl | ⟨t, among, inside⟩
  · decide
  · exact ascii_of_isPlain b (isPlain_of_isToken (tokens t among) b inside)

theorem splitOnP_spaced {ts : List Bytes} (nonempty : ts ≠ []) (tokens : ∀ t ∈ ts, isToken t) :
    (pieces (spaced ts)).splitOnP Piece.isBlank = ts.map (·.map Piece.ofByte) := by
  induction ts with
  | nil => exact absurd rfl nonempty
  | cons t ts ih =>
    have plain := isPlain_of_isToken (tokens t (by simp))
    have ascii : ∀ b ∈ t, b < 0x80 := fun b member => ascii_of_isPlain b (plain b member)
    have visible : ∀ p ∈ t.map Piece.ofByte, p.isBlank = false := by
      simpa using fun b member => isBlank_of_isPlain b (plain b member)
    cases ts with
    | nil =>
      rw [spaced_singleton, pieces_of_ascii ascii, List.splitOnP_eq_singleton visible]
      rfl
    | cons u ts =>
      rw [spaced_cons_cons, pieces_append ascii, pieces_cons (by decide),
        List.splitOnP_append_cons_of_forall_mem visible _ (by decide),
        ih (by simp) fun v member => tokens v (by simp [member])]
      rfl

theorem tokens_spaced {ts : List Bytes} (nonempty : ts ≠ []) (tokens : ∀ t ∈ ts, isToken t) :
    StackAsm.tokens (spaced ts) = ts := by
  have kept : (ts.map (·.map Piece.ofByte)).filter (· ≠ []) = ts.map (·.map Piece.ofByte) := by
    rw [List.filter_eq_self]
    simpa using fun t member => ne_nil_of_isToken (tokens t member)
  have back : ∀ t ∈ ts, ofPieces (t.map Piece.ofByte) = t := by
    intro t member
    apply ofPieces_map_ofByte
    intro b inside
    exact ascii_of_isPlain b (isPlain_of_isToken (tokens t member) b inside)
  rw [StackAsm.tokens, splitOnP_spaced nonempty tokens, kept, List.map_map]
  exact (List.map_congr_left back).trans (List.map_id ts)

theorem strip_of_ends {α : Type} {p : α → Bool} {xs : List α}
    (first : ∀ x, xs.head? = some x → p x = false)
    (last : ∀ x, xs.getLast? = some x → p x = false) : strip p xs = xs := by
  have front : xs.dropWhile p = xs := by
    cases xs with
    | nil => rfl
    | cons x xs => rw [List.dropWhile_cons_of_neg (by simp [first x rfl])]
  have back : xs.reverse.dropWhile p = xs.reverse := by
    cases reversed : xs.reverse with
    | nil => rfl
    | cons x ys =>
      have isLast : xs.getLast? = some x := by
        rw [← List.head?_reverse, reversed, List.head?_cons]
      rw [List.dropWhile_cons_of_neg (by simp [last x isLast])]
  rw [strip, front, back, List.reverse_reverse]

theorem spaced_ne_nil {ts : List Bytes} (nonempty : ts ≠ []) (tokens : ∀ t ∈ ts, isToken t) :
    spaced ts ≠ [] := by
  cases ts with
  | nil => exact absurd rfl nonempty
  | cons t ts =>
    have first := ne_nil_of_isToken (tokens t (by simp))
    cases ts with
    | nil => rwa [spaced_singleton]
    | cons u ts => simp [spaced_cons_cons]

theorem isPlain_of_head?_spaced {ts : List Bytes} (tokens : ∀ t ∈ ts, isToken t) {b : UInt8}
    (first : (spaced ts).head? = some b) : isPlain b := by
  cases ts with
  | nil => cases first
  | cons t ts =>
    have token := tokens t (by simp)
    suffices t.head? = some b from isPlain_of_isToken token b (List.mem_of_head? this)
    cases ts with
    | nil => rwa [spaced_singleton] at first
    | cons u ts =>
      obtain ⟨c, more, rfl⟩ := List.exists_cons_of_ne_nil (ne_nil_of_isToken token)
      rwa [spaced_cons_cons, List.cons_append, List.head?_cons] at first

theorem isPlain_of_getLast?_spaced {ts : List Bytes} (tokens : ∀ t ∈ ts, isToken t) {b : UInt8}
    (last : (spaced ts).getLast? = some b) : isPlain b := by
  induction ts with
  | nil => cases last
  | cons t ts ih =>
    cases ts with
    | nil =>
      rw [spaced_singleton] at last
      exact isPlain_of_isToken (tokens t (by simp)) b (List.mem_of_getLast? last)
    | cons u ts =>
      have later : ∀ v ∈ u :: ts, isToken v := fun v member => tokens v (by simp [member])
      apply ih later
      obtain ⟨c, more, split⟩ := List.exists_cons_of_ne_nil (spaced_ne_nil (by simp) later)
      rw [spaced_cons_cons, split, List.getLast?_append, List.getLast?_cons_cons] at last
      rwa [split]

theorem trim_spaced {ts : List Bytes} (tokens : ∀ t ∈ ts, isToken t) :
    trim (spaced ts) = spaced ts := by
  have ascii := ascii_of_mem_spaced tokens
  rw [trim, pieces_of_ascii ascii, strip_of_ends, ofPieces_map_ofByte ascii]
  · intro p first
    rw [List.head?_map, Option.map_eq_some_iff] at first
    obtain ⟨b, front, rfl⟩ := first
    exact isBlank_of_isPlain b (isPlain_of_head?_spaced tokens front)
  · intro p last
    rw [List.getLast?_map, Option.map_eq_some_iff] at last
    obtain ⟨b, rear, rfl⟩ := last
    exact isBlank_of_isPlain b (isPlain_of_getLast?_spaced tokens rear)

theorem lower_cons {b : UInt8} (ascii : b < 0x80) (bs : Bytes) :
    lower (b :: bs) = String.utf8EncodeChar (lowerChar (Piece.ofByte b).shown) ++ lower bs := by
  rw [lower, pieces_cons ascii, List.flatMap_cons]
  rfl

def Ascii.toLower (b : UInt8) : UInt8 :=
  if 0x41 ≤ b ∧ b ≤ 0x5A then b + 0x20 else b

theorem utf8EncodeChar_lowerChar : ∀ b : UInt8, b < 0x80 →
    String.utf8EncodeChar (lowerChar (Piece.ofByte b).shown) = [toLower b] :=
  forall_byte (by decide +kernel)

theorem lower_of_ascii {bs : Bytes} (ascii : ∀ b ∈ bs, b < 0x80) : lower bs = bs.map toLower := by
  induction bs with
  | nil => rfl
  | cons b bs ih =>
    rw [List.forall_mem_cons] at ascii
    rw [lower_cons ascii.1, utf8EncodeChar_lowerChar b ascii.1, ih ascii.2]
    rfl

theorem code_append {xs : Bytes} (unquoted : doubleQuote ∉ xs) (bare : numberSign ∉ xs)
    (ys : Bytes) : Line.code false (xs ++ ys) = xs ++ Line.code false ys := by
  induction xs with
  | nil => rfl
  | cons b xs ih =>
    rw [List.mem_cons, not_or] at unquoted bare
    have later := ih unquoted.2 bare.2
    rw [List.cons_append, List.cons_append, ← later]
    -- A byte at the end of the line is a case of its own.
    cases xs ++ ys with
    | nil => simp [Line.code, Ne.symm bare.1]
    | cons c bs => simp [Line.code, Ne.symm bare.1, Ne.symm unquoted.1]

theorem code_of_plain {bs : Bytes} (unquoted : doubleQuote ∉ bs) (bare : numberSign ∉ bs) :
    Line.code false bs = bs := by
  have whole := code_append unquoted bare []
  rwa [List.append_nil, Line.code, List.append_nil] at whole

theorem not_mem_of_isToken {mark : UInt8} (special : isPlain mark = false) {t : Bytes}
    (token : isToken t) : mark ∉ t := by
  intro member
  rw [isPlain_of_isToken token mark member] at special
  cases special

theorem not_mem_spaced {mark : UInt8} (special : isPlain mark = false) (visible : mark ≠ space)
    {ts : List Bytes} (tokens : ∀ t ∈ ts, isToken t) : mark ∉ spaced ts := by
  intro member
  rcases mem_spaced member with isSpace | ⟨t, among, inside⟩
  · exact visible isSpace
  · exact not_mem_of_isToken special (tokens t among) inside

theorem classify_spaced {ts : List Bytes} (nonempty : ts ≠ []) (tokens : ∀ t ∈ ts, isToken t) :
    Line.classify (spaced ts) = .instruction (spaced ts) := by
  have noLabel : (spaced ts).getLast? ≠ some colon := by
    intro last
    have plain := isPlain_of_getLast?_spaced tokens last
    revert plain
    decide
  rw [Line.classify, code_of_plain (not_mem_spaced (by decide) (by decide) tokens)
    (not_mem_spaced (by decide) (by decide) tokens), trim_spaced tokens, Line.ofText,
    if_neg (spaced_ne_nil nonempty tokens), if_neg noLabel]

end StackAsm
