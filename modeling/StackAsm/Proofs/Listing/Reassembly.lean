import StackAsm.Listing
import StackAsm.Proofs.Assembly.Transcript
import StackAsm.Proofs.Image.RoundTrip
import StackAsm.Proofs.Instruction.ReservedBits

set_option autoImplicit false

namespace StackAsm

open Ascii

namespace Instruction

def IsBranch : Instruction → Prop
  | .call _ | .goto _ | .binaryIf _ _ | .unaryIf _ _ => True
  | _ => False

theorem Spellable.not_isBranch {i : Instruction} (spellable : i.Spellable) : ¬i.IsBranch := by
  cases i with
  | call | goto | binaryIf | unaryIf => exact spellable.elim
  | _ => exact id

theorem Spellable.truncate {i : Instruction} (spellable : i.Spellable) :
    i.truncate.Spellable := by
  cases i with
  | binary operator =>
    obtain ⟨lower, upper⟩ := spellable
    have same : operator % 16 = operator :=
      (mod_eq_self_iff_byte operator 16 (by decide)).2 (UInt8.lt_of_le_of_lt upper (by decide))
    simp only [Instruction.truncate, same, lower, upper, and_self, ↓reduceIte, Spellable]
  | unary operator =>
    have same : operator % 16 = operator :=
      (mod_eq_self_iff_byte operator 16 (by decide)).2 (UInt8.lt_of_le_of_lt spellable (by decide))
    have small : operator ≤ 1 := spellable
    simp only [Instruction.truncate, same, small, ↓reduceIte, Spellable]
  | stprint offset format | print offset format => exact UInt8.mod_lt format (by decide)
  | call | goto | binaryIf | unaryIf | unknown => exact spellable.elim
  | _ => trivial

theorem Spellable.encode_decode_encode {i : Instruction} (spellable : i.Spellable) :
    encode (decode (encode i)) = encode i := by
  -- Only `stprint` and `print` have reserved bits, which lie around and above their fields.
  cases i with
  | stprint offset format =>
    have bound := wordResidue_lt 0x1000 (by decide) offset
    rw [encode_decode_stprint _ (toNat_encode_div _)]
    apply UInt32.toNat_inj.1
    rw [toNat_and_not_stprint, toNat_encode, encodeNat]
    omega
  | print offset format =>
    have bound := wordResidue_lt 0x1000 (by decide) offset
    rw [encode_decode_print _ (toNat_encode_div _)]
    apply UInt32.toNat_inj.1
    rw [toNat_and_not_print, toNat_encode, encodeNat]
    omega
  | unknown word => exact spellable.elim
  | _ =>
    apply encode_decode_of_unreserved <;> rw [toNat_encode_div] <;> simp only [opcode] <;> decide

def Recoverable (w : UInt32) : Prop :=
  encode (decode w) = w ∧ ((decode w).Spellable ∨ w = 0)

theorem recoverable_encode {i : Instruction} (emitted : i.Spellable ∨ i = .unknown 0) :
    Recoverable (encode i) := by
  rcases emitted with spellable | rfl
  · refine ⟨spellable.encode_decode_encode, .inl ?_⟩
    rw [decode_encode]
    exact spellable.truncate
  · exact ⟨rfl, .inr rfl⟩

theorem map_encode_decode {ws : List UInt32} (recoverable : ∀ w ∈ ws, Recoverable w) :
    (ws.map decode).map encode = ws := by
  have same : ∀ w ∈ ws, (encode ∘ decode) w = id w := fun w member => (recoverable w member).1
  rw [List.map_map, List.map_congr_left same, List.map_id]

theorem Recoverable.not_isBranch {w : UInt32} (recoverable : Recoverable w) :
    ¬(decode w).IsBranch := by
  rcases recoverable.2 with spellable | rfl
  · exact spellable.not_isBranch
  · exact id

theorem Recoverable.eq_zero_of_undefined {w : UInt32} (recoverable : Recoverable w)
    (undefined : Undefined w) : w = 0 := by
  rcases recoverable.2 with spellable | zero
  · rw [(decode_eq_unknown_iff w).2 undefined] at spellable
    exact spellable.elim
  · exact zero

end Instruction

open Instruction

namespace Listing

theorem emit_instructionText {w : UInt32} (recoverable : Recoverable w) :
    Statement.emit { strict := false, extended := true } (instructionText w) =
      .ok [decode w] := by
  rcases recoverable.2 with spellable | rfl
  · exact Statement.emit_text false (decode w) spellable
  · rfl

theorem assemble_instructionTexts (file : Bytes) {ws : List UInt32}
    (recoverable : ∀ w ∈ ws, Recoverable w) :
    (assemble file { strict := false, extended := true }
      (.ofBytes (terminated (ws.map instructionText)))).result = .ok ⟨ws.map decode, [], []⟩ := by
  have texts : (ws.map decode).map Instruction.text = ws.map instructionText := by
    rw [List.map_map]
    rfl
  have lines : Line.ofSource (terminated (ws.map instructionText)) =
      (ws.map instructionText).map .instruction := by
    rw [← texts]
    exact Line.ofSource_texts List.mem_cons_self
  have emitted : (ws.map instructionText).map
      (Statement.emit { strict := false, extended := true }) =
        (ws.map fun w => [decode w]).map .ok := by
    rw [List.map_map, List.map_map]
    apply List.map_congr_left
    intro w member
    exact emit_instructionText (recoverable w member)
  rw [assemble_instructions file lines emitted, ← List.flatMap_def, ← List.map_eq_flatMap]

structure Row where
  offset : Bytes
  word : Bytes
  instruction : Bytes

namespace Row

def columns (r : Row) : List Bytes :=
  [r.offset, r.word, r.instruction]

def Separable (r : Row) : Prop :=
  ∀ column ∈ r.columns, tab ∉ column ∧ lineFeed ∉ column

def text (r : Row) : Bytes :=
  [tab].intercalate r.columns ++ [lineFeed]

end Row

def row (offset : Nat) (w : UInt32) : Row where
  offset := (space :: Numeral.decimal offset).leftpad 8 space
  word := Numeral.hexPadded 8 w.toNat
  instruction := instructionText w

def rowsFrom (offset : Nat) : List UInt32 → List Row
  | [] => []
  | w :: ws => row offset w :: rowsFrom (offset + 4) ws

theorem length_rowsFrom (offset : Nat) (ws : List UInt32) :
    (rowsFrom offset ws).length = ws.length := by
  induction ws generalizing offset with
  | nil => rfl
  | cons w ws ih => rw [rowsFrom, List.length_cons, ih, List.length_cons]

theorem map_instruction_rowsFrom (offset : Nat) (ws : List UInt32) :
    (rowsFrom offset ws).map Row.instruction = ws.map instructionText := by
  induction ws generalizing offset with
  | nil => rfl
  | cons w ws ih => rw [rowsFrom, List.map_cons, ih, List.map_cons, row]

theorem flatten_partsFrom (offset : Nat) (ws : List UInt32) :
    (partsFrom offset ws).flatten = (rowsFrom offset ws).flatMap Row.text := by
  induction ws generalizing offset with
  | nil => rfl
  | cons w ws ih =>
    have line : (lineParts offset w).flatten = (row offset w).text := by
      have tabbed : utf8 "\t" = [tab] := rfl
      have ended : utf8 "\n" = [lineFeed] := rfl
      simp [lineParts, address, Row.text, Row.columns, row, List.intercalate, tabbed, ended]
    rw [partsFrom, List.flatten_append, ih, rowsFrom, List.flatMap_cons, line]

theorem write_unlimited (ws : List UInt32) :
    write .unlimited [] ws = (none, (rowsFrom 0 ws).flatMap Row.text) := by
  rw [write, Checked.writeAll_unlimited, List.nil_append, parts, flatten_partsFrom]

theorem separable_row (offset : Nat) (w : UInt32) : (row offset w).Separable := by
  have absent {mark : UInt8} (special : isPlain mark = false) (visible : mark ≠ space) :
      ∀ column ∈ (row offset w).columns, mark ∉ column := by
    simp only [Row.columns, row, List.forall_mem_cons]
    refine ⟨?_, ?_, not_mem_text _ special visible, nofun⟩
    · have digits : isToken (Numeral.decimal offset) :=
        Numeral.isToken_digits (by decide) (by decide) offset
      simp [List.leftpad, visible, not_mem_of_isToken special digits]
    · exact not_mem_of_isToken special (isToken_hexPadded 8 w.toNat)
  intro column member
  exact ⟨absent (by decide) (by decide) column member, absent (by decide) (by decide) column member⟩

theorem separable_of_mem_rowsFrom {offset : Nat} {ws : List UInt32} {r : Row}
    (member : r ∈ rowsFrom offset ws) : r.Separable := by
  induction ws generalizing offset with
  | nil => cases member
  | cons w ws ih =>
    rcases List.mem_cons.1 member with rfl | below
    · exact separable_row offset w
    · exact ih below

end Listing

/-- A program that was assembled, written as an image, read and listed can be assembled again from
the last column of the listing. -/
theorem listing_reassembles_to_image {file : Bytes} {mode : Mode} {data : Bytes} {p : Program}
    (assembled : (assemble file mode (.ofBytes data)).result = .ok p)
    (nonempty : p.instructions ≠ []) :
    ∃ (n : Nat) (image : Bytes) (ws : List UInt32) (rows : List Listing.Row),
      Image.write .unlimited [] p.instructions = (⟨n, none⟩, image) ∧
      Image.read (.ofBytes image) = .ok ws ∧
      Listing.write .unlimited [] ws = (none, rows.flatMap Listing.Row.text) ∧
      rows.length = ws.length ∧
      (∀ row ∈ rows, row.Separable) ∧
      (∀ name, ∃ q, q.labels = [] ∧ q.warnings = [] ∧ q.instructions.map encode = ws ∧
        (assemble name { strict := false, extended := true }
          (.ofBytes (terminated (rows.map Listing.Row.instruction)))).result = .ok q) ∧
      ∀ w ∈ ws, ¬(decode w).IsBranch ∧ (Undefined w → w = 0) := by
  have recoverable : ∀ w ∈ Image.words p.instructions, Recoverable w := by
    intro w member
    obtain ⟨i, origin, rfl⟩ := Image.mem_words member
    rcases origin with own | rfl
    · exact recoverable_encode (spellable_of_assemble assembled i own)
    · exact recoverable_encode (.inl trivial)
  refine ⟨_, _, Image.words p.instructions, Listing.rowsFrom 0 _, Image.write_unlimited nonempty,
    Image.read_bytesOfWords _, Listing.write_unlimited _, Listing.length_rowsFrom 0 _,
    fun row => Listing.separable_of_mem_rowsFrom, ?_, ?_⟩
  · intro name
    rw [Listing.map_instruction_rowsFrom]
    have again := Listing.assemble_instructionTexts name recoverable
    exact ⟨_, rfl, rfl, map_encode_decode recoverable, again⟩
  · intro w member
    exact ⟨(recoverable w member).not_isBranch, (recoverable w member).eq_zero_of_undefined⟩

theorem listing_reassembles_to_image_of_mixed :
    ∃ (p : Program) (n : Nat) (image : Bytes) (ws : List UInt32) (rows : List Listing.Row),
      (assemble [] { extended := true } (.ofBytes
        (utf8 "a:\nprint -4 hex\nfrob\npush 0x1FFFFFFF\nstpush \"b\\n\""))).result = .ok p ∧
      p.instructions = [.print (-4) 1, .unknown 0, .push 0x1FFFFFFF, .push 0x0A62] ∧
      Image.write .unlimited [] p.instructions = (⟨n, none⟩, image) ∧
      Image.read (.ofBytes image) = .ok ws ∧
      Listing.write .unlimited [] ws = (none, rows.flatMap Listing.Row.text) ∧
      ∃ q, q.instructions.map encode = ws ∧ (assemble [] { strict := false, extended := true }
        (.ofBytes (terminated (rows.map Listing.Row.instruction)))).result = .ok q := by
  have assembled : (assemble [] { extended := true } (.ofBytes
      (utf8 "a:\nprint -4 hex\nfrob\npush 0x1FFFFFFF\nstpush \"b\\n\""))).result =
        .ok ⟨[.print (-4) 1, .unknown 0, .push 0x1FFFFFFF, .push 0x0A62], [⟨utf8 "a", 1, 0⟩], []⟩ :=
    rfl
  obtain ⟨n, image, ws, rows, written, read, listed, -, -, again, -⟩ :=
    listing_reassembles_to_image assembled (List.cons_ne_nil _ _)
  obtain ⟨q, -, -, same, reassembled⟩ := again []
  exact ⟨_, n, image, ws, rows, assembled, rfl, written, read, listed, q, same, reassembled⟩

end StackAsm
