import StackAsm.Assembly.Program
import StackAsm.Proofs.Text.Numeral

set_option autoImplicit false

namespace StackAsm

namespace Instruction

open Numeral

def spelling : Instruction → List Bytes
  | .exit code => [utf8 "exit", decimal code.toNat]
  | .swap source target => [utf8 "swap", signed source.toInt, signed target.toInt]
  | .nop => [utf8 "nop"]
  | .input => [utf8 "input"]
  | .debug value => [utf8 "debug", hexOperand 1 value.toNat]
  | .stinput limit => [utf8 "stinput", hexOperand 1 limit.toNat]
  | .pop offset => [utf8 "pop", decimal offset.toNat]
  | .binary operator => [NameTable.arithmetic.name operator]
  | .unary operator => [NameTable.unary.name operator]
  | .stprint offset format =>
    [utf8 "stprint", signed offset.toInt, NameTable.format.name format]
  | .call offset => [utf8 "call", signed offset.toInt]
  | .ret offset => [utf8 "return", decimal offset.toNat]
  | .goto offset => [utf8 "goto", signed offset.toInt]
  | .binaryIf condition offset => [NameTable.comparison.name condition, signed offset.toInt]
  | .unaryIf condition offset => [NameTable.zeroTest.name condition, signed offset.toInt]
  | .dup offset => [utf8 "dup", signed offset.toInt]
  | .print offset format => [utf8 "print", signed offset.toInt, NameTable.format.name format]
  | .dump => [utf8 "dump"]
  | .push value => [utf8 "push", hexOperand 7 value.toNat]
  | .unknown word => [utf8 ".word", hexOperand 8 word.toNat]

theorem text_eq_spaced (i : Instruction) : i.text = spaced i.spelling := by
  cases i <;>
    simp only [text, spelling, spaced_cons_cons, spaced_singleton, List.append_assoc] <;> rfl

theorem spelling_ne_nil (i : Instruction) : i.spelling ≠ [] := by
  cases i <;> simp [spelling]

theorem isToken_name (t : NameTable) (named : ∀ name ∈ t.other :: t.names, isToken name)
    (n : UInt8) : isToken (t.name n) := by
  rw [NameTable.name]
  split
  next => exact named _ (by simp)
  next =>
    rw [List.getD_eq_getElem?_getD]
    cases found : t.names[n.toNat - t.first]? with
    | none => exact named _ (by simp)
    | some name => exact named _ (by simp [List.mem_of_getElem? found])

theorem isToken_of_mem_spelling (i : Instruction) : ∀ t ∈ i.spelling, isToken t := by
  have number (n : Nat) : isToken (decimal n) := isToken_digits (by decide) (by decide) n
  cases i with
  | exit n | pop n | ret n =>
    simp only [spelling, List.forall_mem_cons]
    exact ⟨by decide, number _, by simp⟩
  | swap source target =>
    simp only [spelling, List.forall_mem_cons]
    exact ⟨by decide, isToken_signed _, isToken_signed _, by simp⟩
  | nop | input | dump => decide
  | debug n | stinput n | push n | unknown n =>
    simp only [spelling, List.forall_mem_cons]
    exact ⟨by decide, isToken_hexOperand _ _, by simp⟩
  | binary operator | unary operator =>
    simp only [spelling, List.forall_mem_cons]
    exact ⟨isToken_name _ (by decide) operator, by simp⟩
  | stprint offset format | print offset format =>
    simp only [spelling, List.forall_mem_cons]
    exact ⟨by decide, isToken_signed _, isToken_name _ (by decide) format, by simp⟩
  | call offset | goto offset | dup offset =>
    simp only [spelling, List.forall_mem_cons]
    exact ⟨by decide, isToken_signed _, by simp⟩
  | binaryIf condition offset | unaryIf condition offset =>
    simp only [spelling, List.forall_mem_cons]
    exact ⟨isToken_name _ (by decide) condition, isToken_signed _, by simp⟩

theorem classify_text (i : Instruction) : Line.classify i.text = .instruction i.text := by
  rw [text_eq_spaced]
  exact classify_spaced i.spelling_ne_nil i.isToken_of_mem_spelling

theorem not_mem_text (i : Instruction) {mark : UInt8} (special : isPlain mark = false)
    (visible : mark ≠ Ascii.space) : mark ∉ i.text := by
  rw [text_eq_spaced]
  exact not_mem_spaced special visible i.isToken_of_mem_spelling

def Spellable : Instruction → Prop
  | .call _ | .goto _ | .binaryIf _ _ | .unaryIf _ _ | .unknown _ => False
  | .binary operator => 1 ≤ operator ∧ operator ≤ 11
  | .unary operator => operator ≤ 1
  | .stprint _ format | .print _ format => format < 4
  | _ => True

end Instruction

namespace Operand

open Numeral

theorem number_decimal_signed (m : Mnemonic) (n : Int32) :
    number m .decimal (signed n.toInt) = .ok n.toInt := by
  have lower := n.le_toInt
  have upper := n.toInt_lt
  simp only [number, Radix.value?]
  rw [decimal?_signed (by omega) (by omega)]

theorem number_marked_signed (m : Mnemonic) (n : Int32) :
    number m .marked (signed n.toInt) = .ok n.toInt := by
  have lower := n.le_toInt
  have upper := n.toInt_lt
  simp only [number, Radix.value?]
  rw [marked?_signed (by omega) (by omega)]

theorem number_decimal_decimal (m : Mnemonic) (n : UInt32) :
    number m .decimal (decimal n.toNat) = .ok (n.toNat : Int) := by
  have bound := n.toNat_lt
  simp only [number, Radix.value?]
  rw [decimal?_decimal (by omega)]

theorem number_marked_decimal (m : Mnemonic) (n : UInt32) :
    number m .marked (decimal n.toNat) = .ok (n.toNat : Int) := by
  have bound := n.toNat_lt
  simp only [number, Radix.value?, ← signed_natCast]
  rw [marked?_signed (by omega) (by omega)]

theorem number_marked_hexOperand (m : Mnemonic) (width : Nat) (n : UInt32) :
    number m .marked (Instruction.hexOperand width n.toNat) = .ok (n.toNat : Int) := by
  have bound := n.toNat_lt
  simp only [number, Radix.value?]
  rw [Instruction.marked?_hexOperand width (by omega)]

theorem ofInt_toNat (n : UInt32) : UInt32.ofInt (n.toNat : Int) = n := by
  have bound := n.toNat_lt
  rw [UInt32.ofInt, Int.emod_eq_of_lt (by omega) (by omega), Int.toNat_natCast, UInt32.ofNat_toNat]

theorem format?_name : ∀ f : UInt8, f < 4 → format? (NameTable.format.name f) = some f :=
  forall_byte (by decide +kernel)

theorem format_name (m : Mnemonic) {f : UInt8} (few : f < 4) :
    format m (some (NameTable.format.name f)) = .ok f := by
  simp only [format, format?_name f few]

end Operand

namespace Statement

open Operand Instruction Numeral

theorem emit_spaced (mode : Mode) {name : Bytes} {os : List Bytes} {m : Mnemonic}
    (tokens : ∀ t ∈ name :: os, isToken t)
    (found : Mnemonic.find? mode.extended (lower name) = some m) :
    emit mode (spaced (name :: os)) = build m (Line.rest (spaced (name :: os))) os := by
  have apart := tokens_spaced (List.cons_ne_nil name os) tokens
  simp only [emit, recognised?, Line.mnemonic, Line.head, Line.operands, apart, List.headD_cons,
    found, List.tail_cons]

theorem emit_spelling (strict : Bool) (i : Instruction) {name : Bytes} {os : List Bytes}
    {m : Mnemonic} (found : Mnemonic.find? true (lower name) = some m)
    (spelled : i.spelling = name :: os) :
    emit { strict := strict, extended := true } i.text = build m (Line.rest i.text) os := by
  have tokens := i.isToken_of_mem_spelling
  rw [text_eq_spaced, spelled]
  rw [spelled] at tokens
  exact emit_spaced _ tokens found

theorem find?_lower_name : ∀ m ∈ Mnemonic.base ++ Mnemonic.extendedOnly,
    Mnemonic.find? true (lower m.name) = some m := by
  decide +kernel

theorem find?_lower_arithmetic : ∀ operator : UInt8, 1 ≤ operator ∧ operator ≤ 11 →
    Mnemonic.find? true (lower (NameTable.arithmetic.name operator)) =
      some (.arithmetic operator) :=
  forall_byte (by decide +kernel)

theorem find?_lower_unary : ∀ operator : UInt8, operator ≤ 1 →
    Mnemonic.find? true (lower (NameTable.unary.name operator)) = some (.unary operator) :=
  forall_byte (by decide +kernel)

theorem debugRadix_hexOperand (width n : Nat) :
    debugRadix [hexOperand width n] = (.marked, [hexOperand width n]) := by
  have first : (lower (hexOperand width n)).head? = some Ascii.zero := by
    have mark : hexOperand width n = Ascii.zero :: 0x78 :: hexPadded width n := rfl
    have zero : String.utf8EncodeChar (lowerChar (Utf8.Piece.ofByte Ascii.zero).shown) =
      [Ascii.zero] := by decide +kernel
    rw [mark, lower_cons (by decide), zero, List.singleton_append, List.head?_cons]
  have noHex : lower (hexOperand width n) ≠ utf8 "hex" := by
    intro same
    rw [same] at first
    revert first
    decide
  have noDec : lower (hexOperand width n) ≠ utf8 "dec" := by
    intro same
    rw [same] at first
    revert first
    decide
  rw [debugRadix, if_neg noHex, if_neg noDec]

theorem emit_text (strict : Bool) (i : Instruction) (spellable : i.Spellable) :
    emit { strict := strict, extended := true } i.text = .ok [i] := by
  cases i with
  | exit code =>
    rw [emit_spelling strict _ (find?_lower_name .exit (by decide)) rfl]
    simp [build, atMost, Operand.optional, number_decimal_decimal, ofInt_toNat, bind, Except.bind,
      pure, Except.pure]
  | swap source target =>
    rw [emit_spelling strict _ (find?_lower_name .swap (by decide)) rfl]
    simp [build, atMost, Operand.optional, number_decimal_signed, bind, Except.bind, pure,
      Except.pure]
  | nop =>
    rw [emit_spelling strict _ (find?_lower_name .nop (by decide)) rfl]
    rfl
  | input =>
    rw [emit_spelling strict _ (find?_lower_name .input (by decide)) rfl]
    rfl
  | debug value =>
    rw [emit_spelling strict _ (find?_lower_name .debug (by decide)) rfl]
    simp [build, atMost, debugRadix_hexOperand, Operand.optional, number_marked_hexOperand,
      ofInt_toNat, bind, Except.bind, pure, Except.pure]
  | stinput limit =>
    rw [emit_spelling strict _ (find?_lower_name .stinput (by decide)) rfl]
    simp [build, atMost, Operand.optional, number_marked_hexOperand, ofInt_toNat, bind,
      Except.bind, pure, Except.pure]
  | pop offset =>
    rw [emit_spelling strict _ (find?_lower_name .pop (by decide)) rfl]
    simp [build, atMost, Operand.optional, number_marked_decimal, ofInt_toNat, bind, Except.bind,
      pure, Except.pure]
  | binary operator =>
    rw [emit_spelling strict _ (find?_lower_arithmetic operator spellable) rfl]
    rfl
  | unary operator =>
    rw [emit_spelling strict _ (find?_lower_unary operator spellable) rfl]
    rfl
  | stprint offset f =>
    rw [emit_spelling strict _ (find?_lower_name .stprint (by decide)) rfl]
    simp [build, atMost, Operand.optional, number_marked_signed, format_name _ spellable, bind,
      Except.bind, pure, Except.pure]
  | call | goto | binaryIf | unaryIf | unknown =>
    exact spellable.elim
  | ret offset =>
    rw [emit_spelling strict _ (find?_lower_name .ret (by decide)) rfl]
    simp [build, atMost, Operand.optional, number_marked_decimal, ofInt_toNat, bind, Except.bind,
      pure, Except.pure]
  | dup offset =>
    rw [emit_spelling strict _ (find?_lower_name .dup (by decide)) rfl]
    simp [build, atMost, Operand.optional, number_decimal_signed, bind, Except.bind, pure,
      Except.pure]
  | print offset f =>
    rw [emit_spelling strict _ (find?_lower_name .print (by decide)) rfl]
    simp [build, atMost, Operand.optional, number_marked_signed, format_name _ spellable, bind,
      Except.bind, pure, Except.pure]
  | dump =>
    rw [emit_spelling strict _ (find?_lower_name .dump (by decide)) rfl]
    rfl
  | push value =>
    rw [emit_spelling strict _ (find?_lower_name .push (by decide)) rfl]
    simp [build, atMost, required, number_marked_hexOperand, ofInt_toNat, bind, Except.bind, pure,
      Except.pure]

end Statement

end StackAsm
