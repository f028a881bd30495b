import StackAsm.Assembly.StringPush

set_option autoImplicit false

namespace StackAsm.StringPush

def chunkCount (bs : Bytes) : Nat :=
  (bs.length + 2) / 3

theorem length_chunks (bs : Bytes) : (chunks bs).length = chunkCount bs := by
  fun_induction chunks bs with
  | case1 | case2 | case3 => simp [chunkCount]
  | case4 a b c bs ih =>
    rw [List.length_cons, ih]
    simp only [chunkCount, List.length_cons]
    omega

theorem length_pushes (cs : List Bytes) : (pushes cs).length = cs.length := by
  cases cs <;> simp [pushes]

theorem length_expand (content : Bytes) :
    (expand content).length = chunkCount (Literal.unescape content) := by
  rw [expand, length_pushes, List.length_reverse, length_chunks]

theorem chunks_eq_map_range (bs : Bytes) :
    chunks bs = (List.range (chunkCount bs)).map fun k => (bs.drop (3 * k)).take 3 := by
  fun_induction chunks bs with
  | case1 | case2 | case3 => simp [chunkCount]
  | case4 a b c bs ih =>
    have more : chunkCount (a :: b :: c :: bs) = chunkCount bs + 1 := by
      simp only [chunkCount, List.length_cons]
      omega
    rw [ih, more, List.range_succ_eq_map, List.map_cons, List.map_map]
    rfl

def byteAt (bs : Bytes) (i : Nat) : Nat :=
  (bs.getD i 0).toNat

theorem chunkValue_take (bs : Bytes) :
    chunkValue (bs.take 3) = byteAt bs 0 + 0x100 * byteAt bs 1 + 0x10000 * byteAt bs 2 := by
  match bs with
  | [] | [a] | [a, b] => simp [chunkValue, byteAt]
  | a :: b :: c :: bs =>
    simp only [chunkValue, byteAt, List.take_succ_cons, List.take_zero, List.foldr_cons,
      List.foldr_nil, List.getD_cons_zero, List.getD_cons_succ]
    omega

theorem byteAt_drop (bs : Bytes) (n i : Nat) : byteAt (bs.drop n) i = byteAt bs (n + i) := by
  simp [byteAt, List.getD_eq_getElem?_getD]

-- The push of a chunk: three bytes, the first of them lowest, and the flag unless it is the last.
def chunkPush (bs : Bytes) (k : Nat) : Instruction :=
  .push (UInt32.ofNat ((if k + 1 < chunkCount bs then 0x1000000 else 0) +
    (byteAt bs (3 * k) + 0x100 * byteAt bs (3 * k + 1) + 0x10000 * byteAt bs (3 * k + 2))))

def carriers (bs : Bytes) : List Instruction :=
  (List.range (chunkCount bs)).reverse.map (chunkPush bs)

theorem length_carriers (bs : Bytes) : (carriers bs).length = chunkCount bs := by
  simp [carriers]

theorem pushes_chunks (bs : Bytes) : pushes (chunks bs).reverse = carriers bs := by
  have value (k : Nat) : chunkValue ((bs.drop (3 * k)).take 3) =
      byteAt bs (3 * k) + 0x100 * byteAt bs (3 * k + 1) + 0x10000 * byteAt bs (3 * k + 2) := by
    simp only [chunkValue_take, byteAt_drop, Nat.add_zero]
  rw [chunks_eq_map_range, carriers]
  cases count : chunkCount bs with
  | zero => rfl
  | succ n =>
    have last : chunkPush bs n = .push (UInt32.ofNat (chunkValue ((bs.drop (3 * n)).take 3))) := by
      rw [chunkPush, count, if_neg (Nat.lt_irrefl _), Nat.zero_add, value]
    have before : ∀ k ∈ (List.range n).reverse, chunkPush bs k =
        .push (UInt32.ofNat (flag + chunkValue ((bs.drop (3 * k)).take 3))) := by
      intro k member
      have smaller : k < n := by simpa using member
      rw [chunkPush, count, if_pos (by omega), value, flag]
    rw [List.range_succ, List.map_append, List.reverse_append, List.reverse_append,
      List.map_append, List.map_congr_left before]
    simp [pushes, last, Function.comp_def]

theorem expand_eq_carriers (content : Bytes) :
    expand content = carriers (Literal.unescape content) := by
  rw [expand, pushes_chunks]

end StackAsm.StringPush
