import StackAsm.Proofs.Assembly.Emission
import StackAsm.Proofs.Assembly.Rejection
import StackAsm.Proofs.Text.LetterCase
import StackAsm.Proofs.Text.NumeralGrammar

set_option autoImplicit false

namespace StackAsm

open Ascii

namespace Operand

def Radix.Spells : Radix → Bytes → Int → Prop
  | .decimal => Numeral.SpellsDecimal
  | .hexadecimal => Numeral.SpellsHex
  | .marked => Numeral.SpellsNumber

def Radix.IsNumeral (r : Radix) (token : Bytes) : Prop :=
  ∃ v, r.Spells token v

def Radix.spelled? : Radix → Bytes → Option Int
  | .decimal, token => Numeral.decimal? token
  | .hexadecimal, token => Numeral.spelledHex? token
  | .marked, token => Numeral.spelledMarked? token

theorem Radix.spelled?_eq_some_iff (r : Radix) (token : Bytes) (v : Int) :
    r.spelled? token = some v ↔ r.Spells token v := by
  cases r with
  | decimal => exact Numeral.decimal?_eq_some_iff token v
  | hexadecimal => exact Numeral.spelledHex?_eq_some_iff token v
  | marked => exact Numeral.spelledMarked?_eq_some_iff token v

theorem Radix.value?_eq_map_narrow (r : Radix) (token : Bytes) :
    r.value? token = (r.spelled? token).map Numeral.narrow := by
  cases r with
  | decimal => exact Numeral.decimal?_eq_map_narrow token
  | hexadecimal => exact Numeral.hex?_eq_map_narrow token
  | marked => exact Numeral.marked?_eq_map_narrow token

-- The number at a place, which has a default if the place may be left empty.
inductive Place (r : Radix) : Option Int → Option Bytes → Int → Prop where
  | absent (value : Int) : Place r (some value) none value
  | given {default : Option Int} {token : Bytes} {v : Int} (spelled : r.Spells token v) :
    Place r default (some token) v

theorem place_some_iff {r : Radix} {default : Option Int} {token : Bytes} {v : Int} :
    Place r default (some token) v ↔ r.Spells token v := by
  constructor
  · rintro ⟨⟩
    assumption
  · exact .given

theorem number_eq_ok_iff {m : Mnemonic} {r : Radix} {token : Bytes} {v : Int} :
    number m r token = .ok v ↔ ∃ z, r.Spells token z ∧ Numeral.narrow z = v := by
  simp only [← Radix.spelled?_eq_some_iff, ← Option.map_eq_some_iff, number,
    Radix.value?_eq_map_narrow]
  cases r.spelled? token <;> simp

theorem optional_eq_ok_iff {m : Mnemonic} {r : Radix} {absent : Int} {token : Option Bytes}
    {v : Int} (fits : Numeral.narrow absent = absent) : Operand.optional m r absent token = .ok v ↔
      ∃ z, Place r (some absent) token z ∧ Numeral.narrow z = v := by
  cases token with
  | none =>
    rw [Operand.optional, Except.ok.injEq]
    constructor
    · rintro rfl
      exact ⟨absent, .absent absent, fits⟩
    · rintro ⟨_, ⟨⟩, rfl⟩
      exact fits.symm
  | some token => simp only [Operand.optional, number_eq_ok_iff, place_some_iff]

theorem required_eq_ok_iff {m : Mnemonic} {r : Radix} {token : Option Bytes} {v : Int} :
    required m r token = .ok v ↔ ∃ z, Place r none token z ∧ Numeral.narrow z = v := by
  cases token with
  | none =>
    constructor
    · rintro ⟨⟩
    · rintro ⟨_, ⟨⟩, -⟩
  | some token => simp only [required, number_eq_ok_iff, place_some_iff]

inductive SpellsFormat : Bytes → UInt8 → Prop where
  | named {token : Bytes} {f : UInt8} (known : f < 4)
    (spelled : token.map toLower = NameTable.format.name f) : SpellsFormat token f
  | numbered {token : Bytes} {n : Nat} (digits : Numeral.Digits 10 token n) (known : n ≤ 3) :
    SpellsFormat token (UInt8.ofNat n)

theorem find?_format_lower_eq_some_iff (token : Bytes) (f : UInt8) :
    NameTable.format.find? (lower token) = some f ↔
      f < 4 ∧ token.map toLower = NameTable.format.name f := by
  have unshared : ∀ f : UInt8, f < 4 → ∀ b ∈ NameTable.format.name f, isUnshared b :=
    forall_byte (by decide +kernel)
  constructor
  · intro found
    obtain ⟨name, -, bound⟩ := NameTable.format.find?_eq_some (by decide) found
    have known : f < 4 := UInt8.lt_iff_toNat_lt.2 bound
    exact ⟨known, (lower_eq_iff (unshared f known) token).1 name.symm⟩
  · rintro ⟨known, spelled⟩
    rw [(lower_eq_iff (unshared f known) token).2 spelled]
    simpa using NameTable.find?_name_format ⟨f.toNat, UInt8.lt_iff_toNat_lt.1 known⟩

theorem ne_formatName {token rest : Bytes} {b f : UInt8} (first : token = b :: rest)
    (starts : Numeral.startsNumeral b) (known : f < 4) :
    token.map toLower ≠ NameTable.format.name f := by
  -- The names start with `d`, `h`, `c` and `u`, and a numeral with a digit or a sign.
  have letter : ∀ f : UInt8, f < 4 → ∃ a ∈ [0x64, 0x68, 0x63, 0x75],
      (NameTable.format.name f).head? = some a := forall_byte (by decide +kernel)
  have unlike : ∀ b, Numeral.startsNumeral b → toLower b ∉ [0x64, 0x68, 0x63, 0x75] :=
    forall_byte (by decide +kernel)
  intro spelled
  obtain ⟨a, among, head⟩ := letter f known
  rw [← spelled, first, List.map_cons, List.head?_cons, Option.some.injEq] at head
  exact unlike b starts (head ▸ among)

theorem format?_eq_some_iff (token : Bytes) (f : UInt8) :
    format? token = some f ↔ SpellsFormat token f := by
  rw [format?, Option.or_eq_some_iff, find?_format_lower_eq_some_iff, Option.map_eq_some_iff]
  simp only [Numeral.naturalUpTo?_eq_some_iff (show 10 ≤ 16 by decide)]
  constructor
  · rintro (⟨known, spelled⟩ | ⟨-, n, ⟨digits, known⟩, rfl⟩)
    · exact .named known spelled
    · exact .numbered digits known
  · rintro (⟨known, spelled⟩ | ⟨digits, known⟩)
    · exact .inl ⟨known, spelled⟩
    · refine .inr ⟨?_, _, ⟨digits, known⟩, rfl⟩
      rw [Option.eq_none_iff_forall_ne_some]
      intro f named
      obtain ⟨below, spelled⟩ := (find?_format_lower_eq_some_iff token f).1 named
      obtain ⟨b, rest, first, starts⟩ := digits.startsNumeral
      exact ne_formatName first starts below spelled

inductive FormatPlace : Option Bytes → UInt8 → Prop where
  | absent : FormatPlace none 0
  | given {token : Bytes} {f : UInt8} (spelled : SpellsFormat token f) : FormatPlace (some token) f

theorem format_eq_ok_iff {m : Mnemonic} {token : Option Bytes} {f : UInt8} :
    format m token = .ok f ↔ FormatPlace token f := by
  cases token with
  | none =>
    rw [format, Except.ok.injEq]
    constructor
    · rintro rfl
      exact .absent
    · rintro ⟨⟩
      rfl
  | some token =>
    have read : format m (some token) = .ok f ↔ format? token = some f := by
      rw [format]
      cases format? token <;> simp
    rw [read, format?_eq_some_iff]
    constructor
    · exact .given
    · rintro ⟨⟩
      assumption

theorem atMost_eq_ok_iff {m : Mnemonic} {limit : Nat} {os : List Bytes} {done : Unit} :
    atMost m limit os = .ok done ↔ os.length ≤ limit := by
  rw [atMost]
  split
  next many => simp [many]
  next few => simpa using few

end Operand

namespace Statement

open Operand

inductive Reads (os : List Bytes) : Mnemonic → Instruction → Prop where
  | nop (none : os.length ≤ 0) : Reads os .nop .nop
  | input (none : os.length ≤ 0) : Reads os .input .input
  | dump (none : os.length ≤ 0) : Reads os .dump .dump
  | arithmetic {operator : UInt8} (none : os.length ≤ 0) :
    Reads os (.arithmetic operator) (.binary operator)
  | unary {operator : UInt8} (none : os.length ≤ 0) :
    Reads os (.unary operator) (.unary operator)
  | exit {v : Int} (few : os.length ≤ 1) (code : Place .decimal (some 0) os[0]? v) :
    Reads os .exit (.exit (UInt32.ofInt v))
  | dup {v : Int} (few : os.length ≤ 1) (offset : Place .decimal (some 0) os[0]? v) :
    Reads os .dup (.dup (Int32.ofInt v))
  | swap {v w : Int} (few : os.length ≤ 2) (source : Place .decimal (some 4) os[0]? v)
    (target : Place .decimal (some 0) os[1]? w) :
    Reads os .swap (.swap (Int32.ofInt v) (Int32.ofInt w))
  | stinput {v : Int} (few : os.length ≤ 1)
    (limit : Place .marked (some defaultInputLimit) os[0]? v) :
    Reads os .stinput (.stinput (UInt32.ofInt v))
  | pop {v : Int} (few : os.length ≤ 1) (offset : Place .marked (some 0) os[0]? v) :
    Reads os .pop (.pop (UInt32.ofInt v))
  | ret {v : Int} (few : os.length ≤ 1) (offset : Place .marked (some 0) os[0]? v) :
    Reads os .ret (.ret (UInt32.ofInt v))
  | push {v : Int} (few : os.length ≤ 1) (value : Place .marked none os[0]? v) :
    Reads os .push (.push (UInt32.ofInt v))
  | print {v : Int} {f : UInt8} (few : os.length ≤ 2)
    (offset : Place .marked (some 0) os[0]? v) (format : FormatPlace os[1]? f) :
    Reads os .print (.print (Int32.ofInt v) f)
  | stprint {v : Int} {f : UInt8} (few : os.length ≤ 2)
    (offset : Place .marked (some 0) os[0]? v) (format : FormatPlace os[1]? f) :
    Reads os .stprint (.stprint (Int32.ofInt v) f)
  | debug {v : Int} (few : (debugRadix os).2.length ≤ 1)
    (value : Place (debugRadix os).1 (some 0) (debugRadix os).2[0]? v) :
    Reads os .debug (.debug (UInt32.ofInt v))

theorem length_debugRadix (os : List Bytes) : os.length ≤ (debugRadix os).2.length + 1 := by
  cases os with
  | nil => simp
  | cons o os =>
    rw [debugRadix]
    split
    next => exact Nat.le_refl _
    next =>
      split
      next => exact Nat.le_refl _
      next => exact Nat.le_succ _

theorem build_eq_ok_iff {m : Mnemonic} (single : m ≠ .stpush) {rest : Bytes} {os : List Bytes}
    {is : List Instruction} : build m rest os = .ok is ↔ ∃ i, is = [i] ∧ Reads os m i := by
  cases m with
  | stpush => exact absurd rfl single
  | exit | dup | stinput | pop | ret | push =>
    simp (disch := decide) only [build, bind_eq_ok_iff, atMost_eq_ok_iff, optional_eq_ok_iff,
      required_eq_ok_iff, exists_exists_and_eq_and, Numeral.uint32_narrow, Numeral.int32_narrow]
    constructor
    · rintro ⟨-, few, v, place, ⟨⟩⟩
      exact ⟨_, rfl, by constructor <;> assumption⟩
    · rintro ⟨i, rfl, ⟨⟩⟩
      exact ⟨(), by assumption, _, by assumption, rfl⟩
  | swap | print | stprint =>
    simp (disch := decide) only [build, bind_eq_ok_iff, atMost_eq_ok_iff, optional_eq_ok_iff,
      format_eq_ok_iff, exists_exists_and_eq_and, Numeral.int32_narrow]
    constructor
    · rintro ⟨-, few, v, first, w, second, ⟨⟩⟩
      exact ⟨_, rfl, by constructor <;> assumption⟩
    · rintro ⟨i, rfl, ⟨⟩⟩
      exact ⟨(), by assumption, _, by assumption, _, by assumption, rfl⟩
  | debug =>
    simp (disch := decide) only [build, bind_eq_ok_iff, atMost_eq_ok_iff, optional_eq_ok_iff,
      exists_exists_and_eq_and, Numeral.uint32_narrow]
    constructor
    · rintro ⟨-, -, -, few, v, place, ⟨⟩⟩
      exact ⟨_, rfl, .debug few place⟩
    · rintro ⟨i, rfl, reads⟩
      cases reads with | debug few place =>
      -- The limit on all operands follows from the one on those after the keyword.
      exact ⟨(), Nat.le_trans (length_debugRadix os) (Nat.succ_le_succ few), (), few, _, place, rfl⟩
  | nop | input | dump | arithmetic operator | unary operator =>
    simp only [build, bind_eq_ok_iff, atMost_eq_ok_iff]
    constructor
    · rintro ⟨-, none, ⟨⟩⟩
      exact ⟨_, rfl, by constructor; assumption⟩
    · rintro ⟨i, rfl, ⟨⟩⟩
      exact ⟨(), by assumption, rfl⟩

end Statement

def Operand.Numerals (limit : Nat) (r : Operand.Radix) (os : List Bytes) : Prop :=
  os.length ≤ limit ∧ ∀ token ∈ os, r.IsNumeral token

open Operand

/-- The operands that a mnemonic takes, or, for a string, the text after the mnemonic. -/
def Mnemonic.Accepts (rest : Bytes) (os : List Bytes) : Mnemonic → Prop
  | .nop | .input | .dump | .arithmetic _ | .unary _ => os = []
  | .exit | .dup => Numerals 1 .decimal os
  | .swap => Numerals 2 .decimal os
  | .stinput | .pop | .ret => Numerals 1 .marked os
  | .push => ∃ token, os = [token] ∧ Radix.marked.IsNumeral token
  | .print | .stprint =>
    Numerals 1 .marked os ∨
      ∃ token style f, os = [token, style] ∧ Radix.marked.IsNumeral token ∧ SpellsFormat style f
  | .debug =>
    Numerals 1 .marked os ∨ ∃ keyword left, os = keyword :: left ∧
      (keyword.map toLower = utf8 "hex" ∧ Numerals 1 .hexadecimal left ∨
        keyword.map toLower = utf8 "dec" ∧ Numerals 1 .decimal left)
  | .stpush =>
    2 ≤ rest.length ∧ rest.head? = some doubleQuote ∧ rest.getLast? = some doubleQuote

namespace Operand

variable {r : Radix} {os : List Bytes}

theorem exists_place_iff {absent : Int} {token : Option Bytes} :
    (∃ v, Place r (some absent) token v) ↔ ∀ t ∈ token, r.IsNumeral t := by
  constructor
  · rintro ⟨v, place⟩ t rfl
    exact ⟨v, place_some_iff.1 place⟩
  · intro numeral
    cases token with
    | none => exact ⟨absent, .absent absent⟩
    | some t =>
      obtain ⟨v, spelled⟩ := numeral t rfl
      exact ⟨v, .given spelled⟩

theorem numerals_iff_getElem? {limit : Nat} :
    Numerals limit r os ↔ os.length ≤ limit ∧ ∀ j < limit, ∀ t ∈ os[j]?, r.IsNumeral t := by
  rw [Numerals]
  refine and_congr_right fun few => ?_
  constructor
  · intro all j _ t here
    exact all t (List.mem_of_getElem? here)
  · intro each t member
    obtain ⟨j, below, rfl⟩ := List.getElem_of_mem member
    exact each j (Nat.lt_of_lt_of_le below few) _ (List.getElem?_eq_getElem below)

theorem numerals_one_iff (absent : Int) :
    Numerals 1 r os ↔ os.length ≤ 1 ∧ ∃ v, Place r (some absent) os[0]? v := by
  simp only [numerals_iff_getElem?, exists_place_iff, Nat.lt_one_iff, forall_eq]

theorem numerals_two_iff (absent absent' : Int) :
    Numerals 2 r os ↔ os.length ≤ 2 ∧ (∃ v, Place r (some absent) os[0]? v) ∧
      ∃ w, Place r (some absent') os[1]? w := by
  simp only [numerals_iff_getElem?, exists_place_iff, Nat.forall_lt_succ_right, Nat.not_lt_zero,
    false_implies, implies_true, true_and]

end Operand

namespace Statement

theorem lower_eq_hex_iff (o : Bytes) : lower o = utf8 "hex" ↔ o.map toLower = utf8 "hex" :=
  lower_eq_iff (by decide +kernel) o

theorem lower_eq_dec_iff (o : Bytes) : lower o = utf8 "dec" ↔ o.map toLower = utf8 "dec" :=
  lower_eq_iff (by decide +kernel) o

theorem debugRadix_hex {keyword : Bytes} (hex : keyword.map toLower = utf8 "hex")
    (left : List Bytes) : debugRadix (keyword :: left) = (.hexadecimal, left) := by
  rw [debugRadix, if_pos ((lower_eq_hex_iff keyword).2 hex)]

theorem debugRadix_dec {keyword : Bytes} (dec : keyword.map toLower = utf8 "dec")
    (left : List Bytes) : debugRadix (keyword :: left) = (.decimal, left) := by
  have unlike : lower keyword ≠ utf8 "hex" := by
    rw [(lower_eq_dec_iff keyword).2 dec]
    decide
  rw [debugRadix, if_neg unlike, if_pos ((lower_eq_dec_iff keyword).2 dec)]

theorem debugRadix_numeral {token : Bytes} (numeral : Radix.marked.IsNumeral token)
    (left : List Bytes) : debugRadix (token :: left) = (.marked, token :: left) := by
  obtain ⟨v, spelled⟩ := numeral
  obtain ⟨b, rest, first, starts⟩ := Numeral.SpellsNumber.startsNumeral spelled
  have noDec : token.map toLower ≠ utf8 "dec" := ne_formatName (f := 0) first starts (by decide)
  have noHex : token.map toLower ≠ utf8 "hex" := ne_formatName (f := 1) first starts (by decide)
  rw [debugRadix, if_neg (mt (lower_eq_hex_iff token).1 noHex),
    if_neg (mt (lower_eq_dec_iff token).1 noDec)]

theorem numerals_debugRadix_iff (os : List Bytes) :
    Numerals 1 (debugRadix os).1 (debugRadix os).2 ↔ Mnemonic.debug.Accepts [] os := by
  simp only [Mnemonic.Accepts]
  constructor
  · intro numerals
    cases os with
    | nil => exact .inl numerals
    | cons o os =>
      rw [debugRadix] at numerals
      split at numerals
      next hex => exact .inr ⟨o, os, rfl, .inl ⟨(lower_eq_hex_iff o).1 hex, numerals⟩⟩
      next =>
        split at numerals
        next dec => exact .inr ⟨o, os, rfl, .inr ⟨(lower_eq_dec_iff o).1 dec, numerals⟩⟩
        next => exact .inl numerals
  · rintro (numerals | ⟨keyword, left, rfl, ⟨hex, numerals⟩ | ⟨dec, numerals⟩⟩)
    · cases os with
      | nil => exact numerals
      | cons o os => rwa [debugRadix_numeral (numerals.2 o List.mem_cons_self)]
    · rwa [debugRadix_hex hex]
    · rwa [debugRadix_dec dec]

theorem exists_push_place_iff (os : List Bytes) :
    (os.length ≤ 1 ∧ ∃ v, Place .marked none os[0]? v) ↔ Mnemonic.push.Accepts [] os := by
  simp only [Mnemonic.Accepts]
  constructor
  · rintro ⟨few, v, place⟩
    match os with
    | [] => cases place
    | [token] =>
      cases place with | given spelled =>
      exact ⟨token, rfl, v, spelled⟩
  · rintro ⟨token, rfl, v, spelled⟩
    exact ⟨Nat.le_refl 1, v, .given spelled⟩

theorem exists_print_places_iff (os : List Bytes) :
    (os.length ≤ 2 ∧ (∃ v, Place .marked (some 0) os[0]? v) ∧ ∃ f, FormatPlace os[1]? f) ↔
      Mnemonic.print.Accepts [] os := by
  simp only [Mnemonic.Accepts]
  constructor
  · rintro ⟨few, offset, f, style⟩
    match os with
    | [] | [token] => exact .inl ((numerals_one_iff 0).2 ⟨by simp, offset⟩)
    | [token, word] =>
      cases style with | given spelled =>
      exact .inr ⟨token, word, f, rfl, exists_place_iff.1 offset token rfl, spelled⟩
  · rintro (numerals | ⟨token, word, f, rfl, numeral, spelled⟩)
    · obtain ⟨few, offset⟩ := (numerals_one_iff 0).1 numerals
      have unstyled : os[1]? = none := List.getElem?_eq_none few
      exact ⟨Nat.le_succ_of_le few, offset, 0, unstyled ▸ .absent⟩
    · refine ⟨Nat.le_refl 2, exists_place_iff.2 ?_, f, .given spelled⟩
      rintro t ⟨⟩
      exact numeral

theorem exists_reads_iff {m : Mnemonic} (single : m ≠ .stpush) (rest : Bytes) (os : List Bytes) :
    (∃ i, Reads os m i) ↔ m.Accepts rest os := by
  -- What is read exists if each place can be read, whatever the instruction then is.
  cases m with
  | stpush => exact absurd rfl single
  | exit | dup | pop | ret =>
    refine Iff.trans ?_ (numerals_one_iff 0).symm
    constructor
    · rintro ⟨i, ⟨⟩⟩
      exact ⟨by assumption, _, by assumption⟩
    · rintro ⟨few, v, place⟩
      exact ⟨_, by constructor <;> assumption⟩
  | stinput =>
    refine Iff.trans ?_ (numerals_one_iff defaultInputLimit).symm
    constructor
    · rintro ⟨i, ⟨⟩⟩
      exact ⟨by assumption, _, by assumption⟩
    · rintro ⟨few, v, place⟩
      exact ⟨_, .stinput few place⟩
  | debug =>
    refine Iff.trans ?_ (numerals_debugRadix_iff os)
    rw [numerals_one_iff 0]
    constructor
    · rintro ⟨i, ⟨⟩⟩
      exact ⟨by assumption, _, by assumption⟩
    · rintro ⟨few, v, place⟩
      exact ⟨_, .debug few place⟩
  | push =>
    refine Iff.trans ?_ (exists_push_place_iff os)
    constructor
    · rintro ⟨i, ⟨⟩⟩
      exact ⟨by assumption, _, by assumption⟩
    · rintro ⟨few, v, place⟩
      exact ⟨_, .push few place⟩
  | swap =>
    refine Iff.trans ?_ (numerals_two_iff 4 0).symm
    constructor
    · rintro ⟨i, ⟨⟩⟩
      exact ⟨by assumption, ⟨_, by assumption⟩, _, by assumption⟩
    · rintro ⟨few, ⟨v, source⟩, w, target⟩
      exact ⟨_, .swap few source target⟩
  | print | stprint =>
    refine Iff.trans ?_ (exists_print_places_iff os)
    constructor
    · rintro ⟨i, ⟨⟩⟩
      exact ⟨by assumption, ⟨_, by assumption⟩, _, by assumption⟩
    · rintro ⟨few, ⟨v, offset⟩, f, style⟩
      exact ⟨_, by constructor <;> assumption⟩
  | nop | input | dump | arithmetic operator | unary operator =>
    refine Iff.trans ?_ (Nat.le_zero.trans List.length_eq_zero_iff)
    constructor
    · rintro ⟨i, ⟨⟩⟩
      assumption
    · intro none
      exact ⟨_, by constructor; assumption⟩

theorem exists_build_iff (m : Mnemonic) (rest : Bytes) (os : List Bytes) :
    (∃ is, build m rest os = .ok is) ↔ m.Accepts rest os := by
  by_cases string : m = .stpush
  next =>
    subst string
    simp only [build, Literal.content?, Mnemonic.Accepts]
    by_cases quoted : 2 ≤ rest.length ∧ rest.head? = some doubleQuote ∧
        rest.getLast? = some doubleQuote <;> simp [quoted]
  next =>
    rw [← exists_reads_iff string]
    constructor
    · rintro ⟨is, built⟩
      obtain ⟨i, -, reads⟩ := (build_eq_ok_iff string).1 built
      exact ⟨i, reads⟩
    · rintro ⟨i, reads⟩
      exact ⟨[i], (build_eq_ok_iff string).2 ⟨i, rfl, reads⟩⟩

end Statement

/-- A line with a mnemonic is assembled just when its operands are those of the mnemonic's grammar.
Any other line is rejected for its form, under the mnemonic's name. -/
theorem line_accepted_iff_operands_in_grammar {mode : Mode} {text : Bytes} {m : Mnemonic}
    (found : Mnemonic.find? mode.extended (Line.mnemonic text) = some m) :
    m.name = Line.mnemonic text ∧
      ((∃ is, Statement.emit mode text = .ok is) ↔
        m.Accepts (Line.rest text) (Line.operands text)) ∧
      ∀ problem, Statement.emit mode text = .error problem →
        problem.isUnsupported = false ∧
          ∃ words, problem.message = m.name ++ utf8 ": " ++ words := by
  rw [Statement.emit_recognised mode found]
  refine ⟨(Mnemonic.find?_eq_some found).1, Statement.exists_build_iff m _ _, ?_⟩
  intro problem failed
  have complaint := Statement.rejects_build m _ _ problem failed
  exact ⟨complaint.isUnsupported, complaint.exists_message⟩

-- The letters of `dec` are hexadecimal digits, and those of `hex` are no decimal ones.
theorem debug_line_accepted_by_order_of_keywords :
    Mnemonic.find? false (Line.mnemonic (utf8 "debug Hex DEC")) = some .debug ∧
      Mnemonic.debug.Accepts (Line.rest (utf8 "debug Hex DEC"))
        (Line.operands (utf8 "debug Hex DEC")) ∧
      Mnemonic.find? false (Line.mnemonic (utf8 "debug DEC Hex")) = some .debug ∧
      ¬ Mnemonic.debug.Accepts (Line.rest (utf8 "debug DEC Hex"))
        (Line.operands (utf8 "debug DEC Hex")) := by
  have found : Mnemonic.find? false (Line.mnemonic (utf8 "debug Hex DEC")) = some .debug := by
    decide +kernel
  have found' : Mnemonic.find? false (Line.mnemonic (utf8 "debug DEC Hex")) = some .debug := by
    decide +kernel
  have emitted : Statement.emit {} (utf8 "debug Hex DEC") = .ok [.debug 0xDEC] := by
    decide +kernel
  have failed : Statement.emit {} (utf8 "debug DEC Hex") =
      .error (.invalidNumber (utf8 "debug") (utf8 "Hex")) := by
    decide +kernel
  refine ⟨found, (@line_accepted_iff_operands_in_grammar {} _ _ found).2.1.1 ⟨_, emitted⟩,
    found', ?_⟩
  rw [← (@line_accepted_iff_operands_in_grammar {} _ _ found').2.1, failed]
  simp

end StackAsm
