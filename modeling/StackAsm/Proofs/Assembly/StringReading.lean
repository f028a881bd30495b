import StackAsm.Proofs.Assembly.StringPush
import StackAsm.Proofs.Instruction.Truncation

set_option autoImplicit false

namespace StackAsm.StringPush

open Literal Instruction

-- Bits 24 to 27 of a pushed value, and the three bytes below them.
def valueFlag (value : UInt32) : Nat :=
  value.toNat / 0x1000000 % 16

def valueBytes (value : UInt32) : Bytes :=
  (wordBytes value).take 3

/-- Reads a string off a stack of pushes, the topmost first, up to a value without the flag. What is
left of the stack comes with it. -/
def readString : List Instruction → Bytes × List Instruction
  | .push value :: below =>
    if valueFlag value = 0 then (valueBytes value, below)
    else (valueBytes value ++ (readString below).1, (readString below).2)
  | below => ([], below)

-- A byte string with the zeros that fill its last chunk.
def padded (bs : Bytes) : Bytes :=
  bs ++ List.replicate (3 * chunkCount bs - bs.length) 0

theorem chunkCount_cons (a b c : UInt8) (bs : Bytes) :
    chunkCount (a :: b :: c :: bs) = chunkCount bs + 1 := by
  simp only [chunkCount, List.length_cons]
  omega

theorem padded_cons (a b c : UInt8) (bs : Bytes) :
    padded (a :: b :: c :: bs) = a :: b :: c :: padded bs := by
  have same : 3 * (chunkCount bs + 1) - (bs.length + 1 + 1 + 1) =
      3 * chunkCount bs - bs.length := by omega
  simp [padded, chunkCount_cons, same]

theorem padded_eq_append (bs : Bytes) :
    ∃ k, k ≤ 2 ∧ (bs.length + k) % 3 = 0 ∧ padded bs = bs ++ List.replicate k 0 := by
  refine ⟨3 * chunkCount bs - bs.length, ?_, ?_, rfl⟩
  all_goals
    simp only [chunkCount]
    omega

theorem length_padded (bs : Bytes) : (padded bs).length = 3 * chunkCount bs := by
  simp only [padded, chunkCount, List.length_append, List.length_replicate]
  omega

theorem value_parts (f : Nat) (bit : f < 2) (x y z : UInt8) :
    let value := UInt32.ofNat (f * 0x1000000 + (x.toNat + 0x100 * y.toNat + 0x10000 * z.toNat))
    value < 0x2000000 ∧ valueFlag value = f ∧ valueBytes value = [x, y, z] := by
  intro value
  have hx := x.toNat_lt
  have hy := y.toNat_lt
  have hz := z.toNat_lt
  have number : value.toNat =
      f * 0x1000000 + (x.toNat + 0x100 * y.toNat + 0x10000 * z.toNat) := by
    simp only [value, UInt32.toNat_ofNat']
    omega
  refine ⟨?_, ?_, ?_⟩
  · rw [UInt32.lt_iff_toNat_lt, number]
    simp only [UInt32.reduceToNat]
    omega
  · rw [valueFlag, number]
    omega
  · simp only [valueBytes, wordBytes, number, List.take_succ_cons, List.take_zero, List.cons.injEq,
      and_true, ← UInt8.toNat_inj, UInt8.toNat_ofNat']
    omega

theorem chunkPush_parts (bs : Bytes) (k : Nat) :
    ∃ value, chunkPush bs k = .push value ∧ value < 0x2000000 ∧
      valueFlag value = (if k + 1 < chunkCount bs then 1 else 0) ∧
      valueBytes value = [bs.getD (3 * k) 0, bs.getD (3 * k + 1) 0, bs.getD (3 * k + 2) 0] := by
  have parts := value_parts (if k + 1 < chunkCount bs then 1 else 0) (by split <;> decide)
    (bs.getD (3 * k) 0) (bs.getD (3 * k + 1) 0) (bs.getD (3 * k + 2) 0)
  refine ⟨_, ?_, parts⟩
  by_cases more : k + 1 < chunkCount bs <;> simp [chunkPush, byteAt, more]

theorem chunkPush_succ (a b c : UInt8) (bs : Bytes) (k : Nat) :
    chunkPush (a :: b :: c :: bs) (k + 1) = chunkPush bs k := by
  have byte (i : Nat) : byteAt (a :: b :: c :: bs) (i + 3) = byteAt bs i := by
    simp [byteAt]
  have later : k + 1 + 1 < chunkCount bs + 1 ↔ k + 1 < chunkCount bs := by omega
  simp only [chunkPush, chunkCount_cons, later, Nat.mul_add, Nat.mul_one, byte,
    Nat.add_right_comm _ 3]

-- Turned over, the pushes come in the order of the chunks.
theorem reverse_carriers (bs : Bytes) :
    (carriers bs).reverse = (List.range (chunkCount bs)).map (chunkPush bs) := by
  simp [carriers, ← List.map_reverse]

theorem reverse_carriers_cons (a b c : UInt8) (bs : Bytes) :
    (carriers (a :: b :: c :: bs)).reverse =
      chunkPush (a :: b :: c :: bs) 0 :: (carriers bs).reverse := by
  simp [reverse_carriers, chunkCount_cons, List.range_succ_eq_map, Function.comp_def,
    chunkPush_succ]

theorem padded_single {bs : Bytes} (single : chunkCount bs = 1) :
    padded bs = [bs.getD 0 0, bs.getD 1 0, bs.getD 2 0] := by
  match bs with
  | [] => simp [chunkCount] at single
  | [a] | [a, b] | [a, b, c] => simp [padded, chunkCount]
  | a :: b :: c :: d :: bs =>
    simp only [chunkCount, List.length_cons] at single
    omega

theorem readString_single {bs : Bytes} (single : chunkCount bs = 1) (below : List Instruction) :
    readString ((carriers bs).reverse ++ below) = (padded bs, below) := by
  obtain ⟨value, push, -, flag, bytes⟩ := chunkPush_parts bs 0
  simp [single] at flag
  simp [reverse_carriers, single, padded_single single, push, readString, flag, bytes]

theorem readString_chunkPush {bs : Bytes} (more : 1 < chunkCount bs)
    (below : List Instruction) : readString (chunkPush bs 0 :: below) =
      ([bs.getD 0 0, bs.getD 1 0, bs.getD 2 0] ++ (readString below).1, (readString below).2) := by
  obtain ⟨value, push, -, flag, bytes⟩ := chunkPush_parts bs 0
  simp [more] at flag
  simp [push, readString, flag, bytes]

theorem readString_carriers {bs : Bytes} (nonempty : bs ≠ []) (below : List Instruction) :
    readString ((carriers bs).reverse ++ below) = (padded bs, below) := by
  -- Chunk by chunk; the one that comes last is told by its flag and not by what lies below it.
  fun_induction chunks bs with
  | case1 => exact absurd rfl nonempty
  | case2 | case3 => exact readString_single (by simp [chunkCount]) below
  | case4 a b c bs ih =>
    by_cases last : bs = []
    next => exact readString_single (by simp [chunkCount, last]) below
    next =>
      have more : 1 < chunkCount (a :: b :: c :: bs) := by
        have some := List.length_pos_iff.2 last
        simp only [chunkCount, List.length_cons]
        omega
      rw [reverse_carriers_cons, List.cons_append, padded_cons, readString_chunkPush more, ih last]
      rfl

theorem carriers_padded (bs : Bytes) : carriers (padded bs) = carriers bs := by
  have count : chunkCount (padded bs) = chunkCount bs := by
    rw [chunkCount, length_padded]
    omega
  have byte (i : Nat) : byteAt (padded bs) i = byteAt bs i := by
    simp only [byteAt, padded, List.getD_eq_getElem?_getD, List.getElem?_append,
      List.getElem?_replicate]
    split
    next => rfl
    next outside =>
      rw [List.getElem?_eq_none (Nat.le_of_not_lt outside)]
      split <;> rfl
  have push : chunkPush (padded bs) = chunkPush bs := by
    funext k
    simp only [chunkPush, count, byte]
  rw [carriers, count, push, carriers]

theorem carriers_eq_iff (bs cs : Bytes) : carriers bs = carriers cs ↔ padded bs = padded cs := by
  have read (ds : Bytes) : (readString (carriers ds).reverse).1 = padded ds := by
    by_cases empty : ds = []
    next =>
      subst empty
      rfl
    next => simpa using congrArg Prod.fst (readString_carriers empty [])
  constructor
  · intro same
    rw [← read bs, same, read]
  · intro same
    rw [← carriers_padded bs, same, carriers_padded]

theorem getElem?_carriers {bs : Bytes} {j : Nat} {i : Instruction}
    (here : (carriers bs)[j]? = some i) :
    ∃ k, k + 1 + j = chunkCount bs ∧ i = chunkPush bs k := by
  have inside : j < chunkCount bs := by
    simpa [length_carriers] using (List.getElem?_eq_some_iff.1 here).1
  refine ⟨chunkCount bs - 1 - j, by omega, ?_⟩
  rw [carriers, List.getElem?_map, List.getElem?_reverse (by simpa using inside),
    List.getElem?_range (by simp; omega)] at here
  simpa using here.symm

/-- Pushing a string loses nothing but the number of zeros at its end. -/
theorem expansion_reads_back_up_to_padding (content : Bytes) :
    (expand content).length = ((unescape content).length + 2) / 3 ∧
    (∀ j i, (expand content)[j]? = some i → ∃ value, i = .push value ∧ value < 0x2000000 ∧
      decode (encode i) = i ∧ valueFlag value = if j = 0 then 0 else 1) ∧
    (∃ k, k ≤ 2 ∧ ((unescape content).length + k) % 3 = 0 ∧
      padded (unescape content) = unescape content ++ List.replicate k 0) ∧
    (∀ below, unescape content ≠ [] ∨ below = [] →
      readString ((expand content).reverse ++ below) = (padded (unescape content), below)) ∧
    ∀ other, expand content = expand other ↔
      padded (unescape content) = padded (unescape other) := by
  simp only [expand_eq_carriers]
  refine ⟨length_carriers _, ?_, padded_eq_append _, ?_, fun other => carriers_eq_iff _ _⟩
  · intro j i here
    obtain ⟨k, place, rfl⟩ := getElem?_carriers here
    obtain ⟨value, push, small, flag, -⟩ := chunkPush_parts (unescape content) k
    -- The last chunk is the first to be pushed.
    have first : k + 1 < chunkCount (unescape content) ↔ j ≠ 0 := by omega
    have range : InRange (.push value) := by
      rw [UInt32.lt_iff_toNat_lt] at small
      simp only [InRange, UInt32.lt_iff_toNat_lt, UInt32.reduceToNat] at small ⊢
      omega
    refine ⟨value, push, small, ?_, by simpa [first] using flag⟩
    rw [push, decode_encode, (truncate_eq_self_iff _).2 range]
  · rintro below (nonempty | rfl)
    · exact readString_carriers nonempty below
    · by_cases empty : unescape content = []
      next => simp [empty, carriers, chunkCount, readString, padded]
      next => exact readString_carriers empty []

theorem expansion_reads_back_of_trailing_zeros :
    expand (utf8 "\\n\\nab") = [.push 0x62, .push 0x1610A0A] ∧
    decode (encode (.push 0x1610A0A)) = .push 0x1610A0A ∧
    readString ([.push 0x1610A0A, .push 0x62] ++ [.push 0x63]) =
      ([0x0A, 0x0A, 0x61, 0x62, 0, 0], [.push 0x63]) ∧
    expand (utf8 "\\n\\nab") = expand (utf8 "\\n\\nab" ++ [0, 0]) := by
  have pushes : expand (utf8 "\\n\\nab") = [.push 0x62, .push 0x1610A0A] := by decide
  obtain ⟨-, held, -, read, same⟩ := expansion_reads_back_up_to_padding (utf8 "\\n\\nab")
  obtain ⟨_, -, -, kept, -⟩ := held 1 (.push 0x1610A0A) (by rw [pushes]; rfl)
  have below := read [.push 0x63] (.inl (by decide))
  rw [pushes] at below
  exact ⟨pushes, kept, below, (same _).2 (by decide)⟩

end StackAsm.StringPush
