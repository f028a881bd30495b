import StackAsm.Proofs.Assembly.OperandGrammar
import StackAsm.Proofs.Instruction.Field

set_option autoImplicit false

namespace StackAsm

open Ascii Operand

-- The places of a line's operands that take a number: how it is spelled there, and its field.
inductive Mnemonic.NumberAt : Mnemonic → List Bytes → Nat → Radix → Field → Prop where
  | exit {os : List Bytes} : NumberAt .exit os 0 .decimal ⟨0, 24, 1⟩
  | stinput {os : List Bytes} : NumberAt .stinput os 0 .marked ⟨0, 24, 1⟩
  | debug {os : List Bytes} : NumberAt .debug os 0 .marked ⟨0, 24, 1⟩
  | debugHex {keyword : Bytes} {left : List Bytes} (spelled : keyword.map toLower = utf8 "hex") :
    NumberAt .debug (keyword :: left) 1 .hexadecimal ⟨0, 24, 1⟩
  | debugDec {keyword : Bytes} {left : List Bytes} (spelled : keyword.map toLower = utf8 "dec") :
    NumberAt .debug (keyword :: left) 1 .decimal ⟨0, 24, 1⟩
  | pop {os : List Bytes} : NumberAt .pop os 0 .marked ⟨0, 28, 1⟩
  | push {os : List Bytes} : NumberAt .push os 0 .marked ⟨0, 28, 1⟩
  | ret {os : List Bytes} : NumberAt .ret os 0 .marked ⟨0, 28, 1⟩
  | dup {os : List Bytes} : NumberAt .dup os 0 .decimal ⟨0, 28, 4⟩
  | source {os : List Bytes} : NumberAt .swap os 0 .decimal ⟨12, 12, 4⟩
  | target {os : List Bytes} : NumberAt .swap os 1 .decimal ⟨0, 12, 4⟩
  | stprint {os : List Bytes} : NumberAt .stprint os 0 .marked ⟨4, 12, 4⟩
  | print {os : List Bytes} : NumberAt .print os 0 .marked ⟨2, 12, 4⟩

theorem Mnemonic.NumberAt.ne_stpush {m : Mnemonic} {os : List Bytes} {j : Nat} {r : Radix}
    {f : Field} (place : m.NumberAt os j r f) : m ≠ .stpush := by
  cases place <;> simp

namespace Operand

variable {r : Radix} {default : Option Int} {token : Bytes} {v w : Int}

theorem Radix.Spells.value_eq (spelled : r.Spells token v) (spelled' : r.Spells token w) :
    v = w := by
  rw [← Radix.spelled?_eq_some_iff] at spelled spelled'
  exact Option.some.inj (spelled.symm.trans spelled')

theorem Radix.spells_zero (r : Radix) : r.Spells (utf8 "0") 0 := by
  rw [← Radix.spelled?_eq_some_iff]
  cases r <;> decide +kernel

theorem Place.value_eq {os : List Bytes} {j : Nat} (place : Place r default os[j]? v)
    (here : os[j]? = some token) (spelled : r.Spells token w) : v = w := by
  rw [here, place_some_iff] at place
  exact place.value_eq spelled

theorem Place.set {os : List Bytes} {j : Nat} (here : os[j]? = some token) {other : Bytes}
    (spelled : r.Spells other v) : Place r default (os.set j other)[j]? v := by
  obtain ⟨inside, -⟩ := List.getElem?_eq_some_iff.1 here
  rw [List.getElem?_set_self inside]
  exact .given spelled

end Operand

namespace Statement

theorem reads_debug {os left : List Bytes} {r : Radix} {v : Int}
    (split : debugRadix os = (r, left)) (few : left.length ≤ 1)
    (value : Place r (some 0) left[0]? v) : Reads os .debug (.debug (UInt32.ofInt v)) := by
  constructor
  · rwa [split]
  · rwa [split]

variable {m : Mnemonic} {os : List Bytes} {i : Instruction} {j : Nat} {r : Radix} {f : Field}
  {token : Bytes} {v : Int}

-- An instruction is a function of the number at a place, whatever is written there.
theorem Reads.exists_make (reads : Reads os m i) (place : m.NumberAt os j r f)
    (here : os[j]? = some token) (spelled : r.Spells token v) :
    ∃ make, Instruction.FieldOf f make ∧ i = make v ∧
      ∀ other w, r.Spells other w → Reads (os.set j other) m (make w) := by
  have few' {limit : Nat} (few : os.length ≤ limit) (other : Bytes) :
      (os.set j other).length ≤ limit := by
    rwa [List.length_set]
  -- The other place of two, which the replacement does not touch.
  have kept {k : Nat} (apart : j ≠ k) (other : Bytes) : (os.set j other)[k]? = os[k]? :=
    List.getElem?_set_ne apart
  cases place with
  | exit =>
    cases reads with | exit few code =>
    obtain rfl := code.value_eq here spelled
    exact ⟨_, .exit, rfl, fun other w written => .exit (few' few other) (.set here written)⟩
  | stinput =>
    cases reads with | stinput few limit =>
    obtain rfl := limit.value_eq here spelled
    exact ⟨_, .stinput, rfl, fun other w written => .stinput (few' few other) (.set here written)⟩
  | pop =>
    cases reads with | pop few offset =>
    obtain rfl := offset.value_eq here spelled
    exact ⟨_, .pop, rfl, fun other w written => .pop (few' few other) (.set here written)⟩
  | push =>
    cases reads with | push few value =>
    obtain rfl := value.value_eq here spelled
    exact ⟨_, .push, rfl, fun other w written => .push (few' few other) (.set here written)⟩
  | ret =>
    cases reads with | ret few offset =>
    obtain rfl := offset.value_eq here spelled
    exact ⟨_, .ret, rfl, fun other w written => .ret (few' few other) (.set here written)⟩
  | dup =>
    cases reads with | dup few offset =>
    obtain rfl := offset.value_eq here spelled
    exact ⟨_, .dup, rfl, fun other w written => .dup (few' few other) (.set here written)⟩
  | source =>
    cases reads with | swap few source target =>
    obtain rfl := source.value_eq here spelled
    refine ⟨_, .source _, rfl, fun other w written => .swap (few' few other) (.set here written) ?_⟩
    rwa [kept (by decide)]
  | target =>
    cases reads with | swap few source target =>
    obtain rfl := target.value_eq here spelled
    refine ⟨_, .target _, rfl, fun other w written => .swap (few' few other) ?_ (.set here written)⟩
    rwa [kept (by decide)]
  | stprint =>
    cases reads with | stprint few offset format =>
    obtain rfl := offset.value_eq here spelled
    refine ⟨_, .stprint _, rfl, fun other w written =>
      .stprint (few' few other) (.set here written) ?_⟩
    rwa [kept (by decide)]
  | print =>
    cases reads with | print few offset format =>
    obtain rfl := offset.value_eq here spelled
    refine ⟨_, .print _, rfl, fun other w written =>
      .print (few' few other) (.set here written) ?_⟩
    rwa [kept (by decide)]
  | debug =>
    cases reads with | debug few value =>
    cases os with
    | nil => cases here
    | cons o left =>
      -- A number in front is no keyword, nor is what replaces it.
      obtain rfl : o = token := by simpa using here
      rw [debugRadix_numeral ⟨v, spelled⟩] at few value
      obtain rfl := value.value_eq here spelled
      exact ⟨_, .debug, rfl, fun other w written =>
        reads_debug (debugRadix_numeral ⟨w, written⟩ left) few (.given written)⟩
  | debugHex keyword =>
    cases reads with | debug few value =>
    rw [debugRadix_hex keyword] at few value
    obtain rfl := value.value_eq here spelled
    exact ⟨_, .debug, rfl, fun other w written =>
      reads_debug (debugRadix_hex keyword _) (by rwa [List.length_set]) (.set here written)⟩
  | debugDec keyword =>
    cases reads with | debug few value =>
    rw [debugRadix_dec keyword] at few value
    obtain rfl := value.value_eq here spelled
    exact ⟨_, .debug, rfl, fun other w written =>
      reads_debug (debugRadix_dec keyword _) (by rwa [List.length_set]) (.set here written)⟩

end Statement

theorem Line.operands_of_set {text other token : Bytes} {j : Nat}
    (replaced : tokens other = (tokens text).set (j + 1) token) :
    Line.mnemonic other = Line.mnemonic text ∧
      Line.operands other = (Line.operands text).set j token := by
  rw [Line.mnemonic, Line.mnemonic, Line.head, Line.head, Line.operands, Line.operands, replaced]
  cases tokens text with
  | nil => exact ⟨rfl, rfl⟩
  | cons first rest => exact ⟨rfl, rfl⟩

/-- The number at a place of an assembled line arrives in its field modulo the width of the field.
Every other bit of the word is that of the line with a zero in its place. -/
theorem operand_reaches_field_modulo_width {mode : Mode} {text token : Bytes} {m : Mnemonic}
    {is : List Instruction} {j : Nat} {r : Radix} {f : Field} {v : Int}
    (found : Mnemonic.find? mode.extended (Line.mnemonic text) = some m)
    (emitted : Statement.emit mode text = .ok is)
    (place : m.NumberAt (Line.operands text) j r f)
    (here : (Line.operands text)[j]? = some token) (spelled : r.Spells token v) :
    ∃ i, is = [i] ∧ f.read i.encode = BitVec.ofInt f.width (v / f.unit) ∧
      ∀ other, tokens other = (tokens text).set (j + 1) (utf8 "0") →
        ∃ zeroed, Statement.emit mode other = .ok [zeroed] ∧
          f.AgreeOutside i.encode zeroed.encode := by
  rw [Statement.emit_recognised mode found, Statement.build_eq_ok_iff place.ne_stpush] at emitted
  obtain ⟨i, rfl, reads⟩ := emitted
  obtain ⟨make, field, rfl, others⟩ := reads.exists_make place here spelled
  refine ⟨make v, rfl, field.holds.read_encode v, ?_⟩
  intro other replaced
  obtain ⟨mnemonic, operands⟩ := Line.operands_of_set replaced
  refine ⟨make 0, ?_, field.holds.agree v 0⟩
  rw [Statement.emit_recognised mode (mnemonic ▸ found), operands,
    Statement.build_eq_ok_iff place.ne_stpush]
  exact ⟨make 0, rfl, others _ _ r.spells_zero⟩

theorem operand_reaches_field_of_three_below_zero :
    Statement.emit { extended := true } (utf8 "print 0xFFFFFFFFFFFFFFFD HEX") =
        .ok [.print (-3) 1] ∧
      ∃ i, [Instruction.print (-3) 1] = [i] ∧
        Field.read ⟨2, 12, 4⟩ i.encode = BitVec.ofInt 12 (0xFFFFFFFFFFFFFFFD / 4) ∧
        ∀ other, tokens other = [utf8 "print", utf8 "0", utf8 "HEX"] →
          ∃ zeroed, Statement.emit { extended := true } other = .ok [zeroed] ∧
            Field.AgreeOutside ⟨2, 12, 4⟩ i.encode zeroed.encode := by
  have emitted : Statement.emit { extended := true } (utf8 "print 0xFFFFFFFFFFFFFFFD HEX") =
      .ok [.print (-3) 1] := by
    decide +kernel
  have spelled : Radix.marked.Spells (utf8 "0xFFFFFFFFFFFFFFFD") 0xFFFFFFFFFFFFFFFD :=
    (Radix.spelled?_eq_some_iff _ _ _).1 (by decide +kernel)
  have split : tokens (utf8 "print 0xFFFFFFFFFFFFFFFD HEX") =
      [utf8 "print", utf8 "0xFFFFFFFFFFFFFFFD", utf8 "HEX"] := by
    decide +kernel
  have reached := operand_reaches_field_modulo_width (by decide +kernel) emitted .print
    (by decide +kernel) spelled
  rw [split] at reached
  exact ⟨emitted, reached⟩

end StackAsm
