import StackAsm.Proofs.Assembly.Emission
import StackAsm.Proofs.Assembly.LabelTable
import StackAsm.Proofs.Assembly.StringPush

set_option autoImplicit false

namespace StackAsm

open Ascii

namespace Literal

theorem length_unescape_le (bs : Bytes) : (unescape bs).length ≤ bs.length := by
  fun_induction unescape bs with
  | case1 => exact Nat.le_refl _
  | case2 => exact Nat.le_refl _
  | case3 bs ih | case4 bs _ ih | case5 bs _ _ ih =>
    simp only [List.length_cons]
    omega
  | case6 c bs _ _ _ ih | case7 b c bs _ ih =>
    simp only [List.length_cons] at ih ⊢
    omega

theorem unescape_of_not_mem {bs : Bytes} (plain : backslash ∉ bs) : unescape bs = bs := by
  fun_induction unescape bs with
  | case1 => rfl
  | case2 => rfl
  | case3 | case4 | case5 | case6 => simp at plain
  | case7 b c bs _ ih => rw [ih (List.not_mem_of_not_mem_cons plain)]

end Literal

open StringPush

-- The chunks that are counted for a literal beyond those that are pushed.
def Literal.surplus (raw : Bytes) : Int :=
  (chunkCount raw : Int) - chunkCount (unescape raw)

theorem Literal.chunkCount_unescape_le (raw : Bytes) :
    chunkCount (unescape raw) ≤ chunkCount raw := by
  have shorter := length_unescape_le raw
  simp only [chunkCount]
  omega

theorem Literal.surplus_nonneg (raw : Bytes) : 0 ≤ surplus raw := by
  have fewer := chunkCount_unescape_le raw
  rw [surplus]
  omega

namespace Line

def literal? : Line → Option Bytes
  | .instruction text =>
    if mnemonic text = utf8 "stpush" then Literal.content? (rest text) else none
  | _ => none

def surplus (l : Line) : Int :=
  l.literal?.elim 0 Literal.surplus

def literals (ls : List Line) : List Bytes :=
  ls.filterMap literal?

theorem count_eq_length_add_surplus {mode : Mode} {l : Line} {is : List Instruction}
    (emitted : Assembly.emitLine mode l = .ok is) : (l.count : Int) = is.length + l.surplus := by
  cases l with
  | blank | label name =>
    cases emitted
    rfl
  | instruction text =>
    rcases Statement.emit_eq_ok emitted with ⟨string, content, quoted, rfl⟩ | ⟨other, i, rfl, -⟩
    · rw [length_expand]
      simp only [count, surplus, literal?, string, quoted, ↓reduceIte, Option.getD_some,
        Option.elim_some, Literal.surplus, chunkCount]
      omega
    · simp [count, surplus, literal?, other]

def surplusOf (ls : List Line) : Int :=
  (literals ls).foldr (fun raw sum => Literal.surplus raw + sum) 0

theorem surplusOf_cons (l : Line) (ls : List Line) :
    surplusOf (l :: ls) = l.surplus + surplusOf ls := by
  rw [surplusOf, literals, List.filterMap_cons, surplus]
  cases l.literal? with
  | none => exact (Int.zero_add _).symm
  | some raw => rfl

theorem total_count_eq {mode : Mode} {ls : List Line} {yields : List (List Instruction)}
    (emitted : ls.map (Assembly.emitLine mode) = yields.map .ok) :
    (total (ls.map count) : Int) = yields.flatten.length + surplusOf ls := by
  replace emitted := Assembly.emitted_iff_map_eq.2 emitted
  induction emitted with
  | nil => rfl
  | cons here _ others =>
    have first := count_eq_length_add_surplus here
    simp only [total, List.map_cons, List.foldr_cons, List.flatten_cons, List.length_append,
      surplusOf_cons, Int.natCast_add] at others ⊢
    omega

theorem surplusOf_nonneg_and_eq_zero_iff (ls : List Line) :
    0 ≤ surplusOf ls ∧
      (surplusOf ls = 0 ↔
        ∀ raw ∈ literals ls, chunkCount raw = chunkCount (Literal.unescape raw)) := by
  -- One induction for both parts: no surplus can make up for another, as none is negative.
  rw [surplusOf]
  induction literals ls with
  | nil => simp
  | cons raw raws ih =>
    have nonneg := Literal.surplus_nonneg raw
    have balanced :
        Literal.surplus raw = 0 ↔ chunkCount raw = chunkCount (Literal.unescape raw) := by
      rw [Literal.surplus]
      omega
    simp only [List.foldr_cons, List.forall_mem_cons, ← balanced, ← ih.2]
    omega

end Line

namespace Label

theorem exists_line_of_mem_declarationsFrom {above offset : Nat} {ls : List Line} {d : Label}
    (declared : d ∈ declarationsFrom above offset ls) :
    ∃ k, d.line = above + k + 1 ∧ ls[k]? = some (.label d.name) ∧
      d.offset = offset + 4 * total ((ls.take k).map Line.count) := by
  induction ls generalizing above offset with
  | nil => cases declared
  | cons l ls ih =>
    -- Further down, the declaration is one line lower and lies behind what `l` counts.
    have later (below : d ∈ declarationsFrom (above + 1) (offset + 4 * l.count) ls) :
        ∃ k, d.line = above + k + 1 ∧ (l :: ls)[k]? = some (.label d.name) ∧
          d.offset = offset + 4 * total (((l :: ls).take k).map Line.count) := by
      obtain ⟨k, line, here, placed⟩ := ih below
      refine ⟨k + 1, by omega, by simpa using here, ?_⟩
      simp only [List.take_succ_cons, List.map_cons, total, List.foldr_cons] at placed ⊢
      omega
    cases l with
    | label name =>
      rw [declarationsFrom, List.mem_cons] at declared
      rcases declared with rfl | below
      · exact ⟨0, rfl, rfl, rfl⟩
      · exact later below
    | blank | instruction text => exact later declared

theorem mem_of_mem_table {ds : List Label} {d : Label} (entered : d ∈ table ds) : d ∈ ds :=
  (LabelTable.foldl_bind_sublist [] ds).subset entered

structure Placed (above : List Line) (emitted : List Instruction) (label : Label) : Prop where
  offset_eq : (label.offset : Int) = 4 * emitted.length + 4 * Line.surplusOf above
  emitted_le_offset : 4 * emitted.length ≤ label.offset
  offset_eq_emitted_iff : label.offset = 4 * emitted.length ↔
    ∀ raw ∈ Line.literals above, chunkCount raw = chunkCount (Literal.unescape raw)
  offset_eq_emitted_of_plain : (∀ raw ∈ Line.literals above, backslash ∉ raw) →
    label.offset = 4 * emitted.length

theorem placed_of_total_count {mode : Mode} {above : List Line}
    {yields : List (List Instruction)} {label : Label}
    (emitted : above.map (Assembly.emitLine mode) = yields.map .ok)
    (counted : label.offset = 4 * total (above.map Line.count)) :
    label.Placed above yields.flatten := by
  have sum := Line.total_count_eq emitted
  obtain ⟨nonneg, zero_iff⟩ := Line.surplusOf_nonneg_and_eq_zero_iff above
  have exact_iff : label.offset = 4 * yields.flatten.length ↔
      ∀ raw ∈ Line.literals above, chunkCount raw = chunkCount (Literal.unescape raw) := by
    rw [← zero_iff]
    omega
  refine ⟨by omega, by omega, exact_iff, ?_⟩
  intro plain
  apply exact_iff.2
  intro raw member
  rw [Literal.unescape_of_not_mem (plain raw member)]

end Label

/-- Labels are placed at what the lines above them yield, plus the surplus of the literals there. -/
theorem labels_placed_by_emitted_and_surplus {file : Bytes} {mode : Mode} {data : Bytes}
    {p : Program} (assembled : (assemble file mode (.ofBytes data)).result = .ok p) :
    (∃ yields : List (List Instruction),
      (Line.ofSource data).map (Assembly.emitLine mode) = yields.map .ok ∧
      p.instructions = yields.flatten ∧
      ∀ label ∈ p.labels, ∃ k, label.line = k + 1 ∧
        (Line.ofSource data)[k]? = some (.label label.name) ∧
        label.Placed ((Line.ofSource data).take k) (yields.take k).flatten) ∧
    (∀ raw, 0 ≤ Literal.surplus raw) ∧
    ∀ (m : Mode) (raw : Bytes) (is : List Instruction),
      Assembly.emitLine m (.classify raw) = .ok is →
        ((Line.classify raw).count : Int) = is.length + (Line.classify raw).surplus := by
  obtain ⟨-, yields, emitted, rfl⟩ := (assemble_eq_ok_iff file mode data p).1 assembled
  refine ⟨⟨yields, emitted, rfl, ?_⟩, Literal.surplus_nonneg, ?_⟩
  · intro label entered
    obtain ⟨k, line, here, counted⟩ :=
      Label.exists_line_of_mem_declarationsFrom (Label.mem_of_mem_table entered)
    have above : ((Line.ofSource data).take k).map (Assembly.emitLine mode) =
        (yields.take k).map .ok := by
      rw [List.map_take, emitted, List.map_take]
    exact ⟨k, by omega, here, Label.placed_of_total_count above (by omega)⟩
  · intro m raw is emitted
    exact Line.count_eq_length_add_surplus emitted

-- Three line feeds are counted as six bytes and pushed as three: the label lies one instruction
-- behind `exit`.
theorem labels_placed_behind_escapes :
    ∃ p yields,
      (assemble [] {} (.ofBytes (utf8 "nop\nstpush \"a\\n\\n\\n\"\nend:\nexit\n"))).result = .ok p ∧
      p.instructions = List.flatten yields ∧ p.labels = [⟨utf8 "end", 3, 16⟩] ∧
      (yields.take 2).flatten.length = 3 ∧
      Label.Placed [.instruction (utf8 "nop"), .instruction (utf8 "stpush \"a\\n\\n\\n\"")]
        (yields.take 2).flatten ⟨utf8 "end", 3, 16⟩ := by
  have assembled : (assemble [] {}
      (.ofBytes (utf8 "nop\nstpush \"a\\n\\n\\n\"\nend:\nexit\n"))).result =
        .ok ⟨[.nop, .push 0x0A, .push 0x10A0A61, .exit 0], [⟨utf8 "end", 3, 16⟩], []⟩ := by
    rfl
  obtain ⟨⟨yields, emitted, flat, placed⟩, -⟩ := labels_placed_by_emitted_and_surplus assembled
  obtain ⟨k, line, -, here⟩ := placed _ (List.mem_singleton.2 rfl)
  obtain rfl : k = 2 := by simpa using line.symm
  have offset : (16 : Int) = 4 * (yields.take 2).flatten.length + 4 * 1 := here.offset_eq
  exact ⟨_, yields, assembled, flat, rfl, by omega, here⟩

end StackAsm
