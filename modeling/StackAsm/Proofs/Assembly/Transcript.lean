import StackAsm.Proofs.Assembly.Emission
import StackAsm.Proofs.Source.Lines

set_option autoImplicit false

namespace StackAsm

open Instruction

theorem Instruction.text_ne_nil (i : Instruction) : i.text ≠ [] := by
  rw [text_eq_spaced]
  exact spaced_ne_nil i.spelling_ne_nil i.isToken_of_mem_spelling

theorem Line.ofSource_texts {is : List Instruction} {data : Bytes}
    (written : data ∈ sourcesOf (is.map text)) :
    Line.ofSource data = (is.map text).map .instruction := by
  have unbroken : ∀ l ∈ is.map text, Ascii.lineFeed ∉ l := by
    intro l listed
    obtain ⟨i, -, rfl⟩ := List.mem_map.1 listed
    exact i.not_mem_text (by decide) (by decide)
  -- No text is empty, so the last line is not lost where its line feed is left out.
  have ended : (is.map text).getLast? ≠ some [] := by
    intro last
    obtain ⟨i, -, empty⟩ := List.mem_map.1 (List.mem_of_getLast? last)
    exact i.text_ne_nil empty
  rw [ofSource, sourceLines_of_mem_sourcesOf written unbroken ended, List.map_map, List.map_map,
    List.map_map]
  apply List.map_congr_left
  intro i _
  have whole : chomp i.text = i.text := chomp_of_not_mem (i.not_mem_text (by decide) (by decide))
  simp only [Function.comp_apply, whole, classify_text]

/-- The texts of instructions are a source of these instructions, whatever their operands. -/
theorem transcript_assembles_to_instructions (file : Bytes) (strict : Bool)
    {is : List Instruction} (spellable : ∀ i ∈ is, i.Spellable) :
    ∀ data ∈ sourcesOf (is.map text),
      (assemble file { strict := strict, extended := true } (.ofBytes data)).result =
        .ok ⟨is, [], []⟩ := by
  intro data written
  have emitted : (is.map text).map (Statement.emit { strict := strict, extended := true }) =
      (is.map fun i => [i]).map .ok := by
    rw [List.map_map, List.map_map]
    apply List.map_congr_left
    intro i member
    exact Statement.emit_text strict i (spellable i member)
  have singles : (is.map fun i => [i]).flatten = is := by
    rw [← List.flatMap_def, List.flatMap_singleton']
  rw [assemble_instructions file (Line.ofSource_texts written) emitted, singles]

theorem transcript_assembles_to_wide_operands :
    (∀ i ∈ [exit 0xFFFFFFFF, swap (-2147483648) 5, stprint (-4) 3, binary 11, push 0xFFFFFFFF],
      i.Spellable) ∧
    (assemble [] { strict := true, extended := true } (.ofBytes (utf8
      "exit 4294967295\nswap -2147483648 5\nstprint -4 udec\nlsr\npush 0xffffffff"))).result =
        .ok ⟨[exit 0xFFFFFFFF, swap (-2147483648) 5, stprint (-4) 3, binary 11, push 0xFFFFFFFF],
          [], []⟩ := by
  have spellable : ∀ i ∈ [exit 0xFFFFFFFF, swap (-2147483648) 5, stprint (-4) 3, binary 11,
      push 0xFFFFFFFF], i.Spellable := by
    simp [Spellable]
  exact ⟨spellable, transcript_assembles_to_instructions [] true spellable _ (by decide +kernel)⟩

end StackAsm
