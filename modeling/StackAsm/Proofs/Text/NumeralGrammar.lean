import Mathlib.Data.List.Induction
import StackAsm.Proofs.Text.Numeral

set_option autoImplicit false

namespace StackAsm.Numeral

open Ascii

def IsDigit (base : Nat) (b : UInt8) (d : Nat) : Prop :=
  d < base ∧ toLower b = (Nat.digitChar d).toUInt8

inductive Digits (base : Nat) : Bytes → Nat → Prop where
  | single {b : UInt8} {d : Nat} (digit : IsDigit base b d) : Digits base [b] d
  | snoc {ds : Bytes} {n : Nat} {b : UInt8} {d : Nat} (front : Digits base ds n)
    (digit : IsDigit base b d) : Digits base (ds ++ [b]) (base * n + d)

inductive SpellsDecimal : Bytes → Int → Prop where
  | unsigned {ds : Bytes} {n : Nat} (digits : Digits 10 ds n) (fits : n < 0x8000000000000000) :
    SpellsDecimal ds n
  | positive {ds : Bytes} {n : Nat} (digits : Digits 10 ds n) (fits : n < 0x8000000000000000) :
    SpellsDecimal (plus :: ds) n
  | negative {ds : Bytes} {n : Nat} (digits : Digits 10 ds n) (fits : n ≤ 0x8000000000000000) :
    SpellsDecimal (hyphen :: ds) (-n)

def hexMarks : List Bytes :=
  [utf8 "0x", utf8 "0X"]

inductive SpellsMarkedHex : Bytes → Int → Prop where
  | digits {mark ds : Bytes} {n : Nat} (marked : mark ∈ hexMarks) (digits : Digits 16 ds n)
    (fits : n < 0x10000000000000000) : SpellsMarkedHex (mark ++ ds) n

-- A hexadecimal numeral, whose mark may be left out.
inductive SpellsHex : Bytes → Int → Prop where
  | bare {ds : Bytes} {n : Nat} (digits : Digits 16 ds n) (fits : n < 0x10000000000000000) :
    SpellsHex ds n
  | marked {bs : Bytes} {z : Int} (spelled : SpellsMarkedHex bs z) : SpellsHex bs z

inductive SpellsNumber : Bytes → Int → Prop where
  | hex {bs : Bytes} {z : Int} (spelled : SpellsMarkedHex bs z) : SpellsNumber bs z
  | decimal {bs : Bytes} {z : Int} (spelled : SpellsDecimal bs z) : SpellsNumber bs z

theorem digitValue?_eq_some_iff (b : UInt8) (d : Nat) :
    digitValue? b = some d ↔ d < 16 ∧ toLower b = (Nat.digitChar d).toUInt8 := by
  have known : ∀ b, ∀ d ∈ digitValue? b, d < 16 ∧ toLower b = (Nat.digitChar d).toUInt8 :=
    forall_byte (by decide +kernel)
  have caseless : ∀ b, digitValue? (toLower b) = digitValue? b := forall_byte (by decide +kernel)
  constructor
  · exact known b d
  · rintro ⟨bound, written⟩
    rw [← caseless, written, digitValue?_digitChar d bound]

theorem digitIn?_eq_some_iff {base : Nat} (small : base ≤ 16) (b : UInt8) (d : Nat) :
    digitIn? base b = some d ↔ IsDigit base b d := by
  simp only [digitIn?, Option.filter_eq_some_iff, digitValue?_eq_some_iff, decide_eq_true_eq,
    IsDigit]
  constructor
  · rintro ⟨⟨-, written⟩, below⟩
    exact ⟨below, written⟩
  · rintro ⟨below, written⟩
    exact ⟨⟨by omega, written⟩, below⟩

theorem natural?_singleton (base : Nat) (b : UInt8) : natural? base [b] = digitIn? base b := by
  cases read : digitIn? base b <;> simp [natural?, read]

theorem natural?_concat_eq_some {base m : Nat} {bs : Bytes} {b : UInt8} (nonempty : bs ≠ [])
    (read : natural? base (bs ++ [b]) = some m) :
    ∃ n d, natural? base bs = some n ∧ digitIn? base b = some d ∧ m = base * n + d := by
  simp only [natural?, List.append_eq_nil_iff, nonempty, false_and, if_false,
    List.mapM_append, Option.map_eq_some_iff] at read ⊢
  obtain ⟨ds, parts, rfl⟩ := read
  cases front : bs.mapM (digitIn? base) with
  | none => simp [front] at parts
  | some es =>
    cases last : digitIn? base b with
    | none => simp [front, last] at parts
    | some d =>
      obtain rfl : es ++ [d] = ds := by simpa [front, last] using parts
      exact ⟨_, d, ⟨es, rfl, rfl⟩, rfl, by simp⟩

theorem natural?_eq_some_iff {base : Nat} (small : base ≤ 16) (bs : Bytes) (n : Nat) :
    natural? base bs = some n ↔ Digits base bs n := by
  constructor
  · intro read
    induction bs using List.reverseRecOn generalizing n with
    | nil => cases read
    | append_singleton bs b ih =>
      by_cases first : bs = []
      next =>
        rw [first, List.nil_append, natural?_singleton, digitIn?_eq_some_iff small] at read
        simpa [first] using Digits.single read
      next =>
        obtain ⟨m, d, front, last, rfl⟩ := natural?_concat_eq_some first read
        exact .snoc (ih m front) ((digitIn?_eq_some_iff small b d).1 last)
  · intro digits
    induction digits with
    | single digit => rw [natural?_singleton, digitIn?_eq_some_iff small]; exact digit
    | snoc _ digit ih => exact natural?_concat ih ((digitIn?_eq_some_iff small _ _).2 digit)

theorem naturalUpTo?_eq_some_iff {base : Nat} (small : base ≤ 16) (limit : Nat) (bs : Bytes)
    (n : Nat) : naturalUpTo? base limit bs = some n ↔ Digits base bs n ∧ n ≤ limit := by
  simp [naturalUpTo?, Option.filter_eq_some_iff, natural?_eq_some_iff small]

theorem Digits.ne_nil {base n : Nat} {bs : Bytes} (digits : Digits base bs n) : bs ≠ [] := by
  cases digits <;> simp

theorem Digits.isDigit_of_mem {base n : Nat} {bs : Bytes} (digits : Digits base bs n) {b : UInt8}
    (member : b ∈ bs) : ∃ d, IsDigit base b d := by
  induction digits with
  | single digit =>
    obtain rfl := List.mem_singleton.1 member
    exact ⟨_, digit⟩
  | snoc _ digit ih =>
    rcases List.mem_append.1 member with front | last
    · exact ih front
    · obtain rfl := List.mem_singleton.1 last
      exact ⟨_, digit⟩

theorem Digits.not_mem {base n : Nat} {bs : Bytes} (digits : Digits base bs n)
    (small : base ≤ 16) {b : UInt8} (other : digitIn? base b = none) : b ∉ bs := by
  intro member
  obtain ⟨d, digit⟩ := digits.isDigit_of_mem member
  rw [(digitIn?_eq_some_iff small b d).2 digit] at other
  cases other

theorem map_naturalUpTo?_eq_some_iff {base : Nat} (small : base ≤ 16) (limit : Nat) (f : Nat → Int)
    (ds : Bytes) (z : Int) : (naturalUpTo? base limit ds).map f = some z ↔
      ∃ n, Digits base ds n ∧ n ≤ limit ∧ z = f n := by
  simp only [Option.map_eq_some_iff, naturalUpTo?_eq_some_iff small, and_assoc,
    eq_comm (b := z)]

theorem decimal?_hyphen (ds : Bytes) : decimal? (hyphen :: ds) =
    (naturalUpTo? 10 0x8000000000000000 ds).map fun n => -Int.ofNat n := by
  simp only [decimal?, if_true]
  cases naturalUpTo? 10 0x8000000000000000 ds <;> rfl

theorem decimal?_plus (ds : Bytes) : decimal? (plus :: ds) =
    (naturalUpTo? 10 0x7FFFFFFFFFFFFFFF ds).map Int.ofNat := by
  have unlike : plus ≠ hyphen := by decide
  simp [decimal?, unlike]

theorem decimal?_unsigned {b : UInt8} (noHyphen : b ≠ hyphen) (noPlus : b ≠ plus) (ds : Bytes) :
    decimal? (b :: ds) = (naturalUpTo? 10 0x7FFFFFFFFFFFFFFF (b :: ds)).map Int.ofNat := by
  simp [decimal?, noHyphen, noPlus]

theorem decimal?_eq_some_iff (bs : Bytes) (z : Int) :
    decimal? bs = some z ↔ SpellsDecimal bs z := by
  have read := fun limit f ds => map_naturalUpTo?_eq_some_iff (show 10 ≤ 16 by decide) limit f ds z
  constructor
  · intro value
    cases bs with
    | nil => cases value
    | cons b ds =>
      by_cases minus : b = hyphen
      next =>
        subst minus
        obtain ⟨n, digits, fits, rfl⟩ := (read _ _ _).1 (decimal?_hyphen ds ▸ value)
        exact .negative digits fits
      next =>
        by_cases plus : b = Ascii.plus
        next =>
          subst plus
          obtain ⟨n, digits, fits, rfl⟩ := (read _ _ _).1 (decimal?_plus ds ▸ value)
          exact .positive digits (Nat.lt_succ_of_le fits)
        next =>
          rw [decimal?_unsigned minus plus, read] at value
          obtain ⟨n, digits, fits, rfl⟩ := value
          exact .unsigned digits (Nat.lt_succ_of_le fits)
  · intro spelled
    cases spelled with
    | negative digits fits => exact decimal?_hyphen _ ▸ (read _ _ _).2 ⟨_, digits, fits, rfl⟩
    | positive digits fits =>
      exact decimal?_plus _ ▸ (read _ _ _).2 ⟨_, digits, Nat.le_of_lt_succ fits, rfl⟩
    | unsigned digits fits =>
      cases bs with
      | nil => exact absurd rfl digits.ne_nil
      | cons b ds =>
        -- A sign in front would have to be a digit.
        have unlike : ∀ sign ∈ [hyphen, plus, 0x78, 0x58], b ≠ sign := by
          rintro sign among rfl
          exact digits.not_mem (by decide) (not_decimal_digit b among) List.mem_cons_self
        rw [decimal?_unsigned (unlike _ (by simp)) (unlike _ (by simp)), read]
        exact ⟨_, digits, Nat.le_of_lt_succ fits, rfl⟩

theorem hasHexMark_iff (bs : Bytes) :
    hasHexMark bs = true ↔ ∃ mark ∈ hexMarks, ∃ ds, mark ++ ds = bs := by
  simp only [hasHexMark, startsWith, Bool.or_eq_true, List.isPrefixOf_iff_prefix, hexMarks,
    List.mem_cons, List.not_mem_nil, or_false, exists_eq_or_imp, exists_eq_left, List.IsPrefix]

theorem Digits.hasHexMark {n : Nat} {bs : Bytes} (digits : Digits 16 bs n) :
    hasHexMark bs = false := by
  rw [Bool.eq_false_iff, ne_eq, hasHexMark_iff]
  rintro ⟨mark, marked, ds, rfl⟩
  have letter : ∀ mark ∈ hexMarks, ∃ b ∈ mark, digitIn? 16 b = none := by decide +kernel
  obtain ⟨b, inside, other⟩ := letter mark marked
  exact digits.not_mem (by decide) other (List.mem_append_left ds inside)

theorem length_of_mem_hexMarks : ∀ mark ∈ hexMarks, mark.length = 2 := by decide

theorem hexNatural?_mark_append {mark : Bytes} (marked : mark ∈ hexMarks) (ds : Bytes) :
    hexNatural? (mark ++ ds) = naturalUpTo? 16 0xFFFFFFFFFFFFFFFF ds := by
  have two := length_of_mem_hexMarks mark marked
  have found : hasHexMark (mark ++ ds) = true := (hasHexMark_iff _).2 ⟨mark, marked, ds, rfl⟩
  cases ds with
  | nil =>
    -- The mark alone is read as digits, of which its letter is none.
    have alone : ∀ mark ∈ hexMarks, hexNatural? (mark ++ []) = none := by decide +kernel
    rw [alone mark marked]
    rfl
  | cons b ds =>
    have long : 2 < (mark ++ b :: ds).length := by
      rw [List.length_append, List.length_cons]
      omega
    have rest : (mark ++ b :: ds).drop 2 = b :: ds := List.drop_left' two
    simp only [hexNatural?, found, long, decide_true, Bool.and_self, if_true, rest]

theorem hexNatural?_of_unmarked {bs : Bytes} (unmarked : hasHexMark bs = false) :
    hexNatural? bs = naturalUpTo? 16 0xFFFFFFFFFFFFFFFF bs := by
  simp [hexNatural?, unmarked]

-- The value that a numeral spells, before it is narrowed to 64 bits with a sign.
def spelledHex? (bs : Bytes) : Option Int :=
  (hexNatural? bs).map Int.ofNat

def spelledMarked? (bs : Bytes) : Option Int :=
  if hasHexMark bs then spelledHex? bs else decimal? bs

theorem spelledHex?_eq_some_iff_of_marked {bs : Bytes} (marked : hasHexMark bs = true) (z : Int) :
    spelledHex? bs = some z ↔ SpellsMarkedHex bs z := by
  constructor
  · intro read
    obtain ⟨mark, among, ds, rfl⟩ := (hasHexMark_iff bs).1 marked
    rw [spelledHex?, hexNatural?_mark_append among,
      map_naturalUpTo?_eq_some_iff (by decide)] at read
    obtain ⟨n, digits, fits, rfl⟩ := read
    exact .digits among digits (Nat.lt_succ_of_le fits)
  · rintro ⟨among, digits, fits⟩
    rw [spelledHex?, hexNatural?_mark_append among, map_naturalUpTo?_eq_some_iff (by decide)]
    exact ⟨_, digits, Nat.le_of_lt_succ fits, rfl⟩

theorem SpellsMarkedHex.hasHexMark {bs : Bytes} {z : Int} (spelled : SpellsMarkedHex bs z) :
    hasHexMark bs = true := by
  obtain ⟨among, -, -⟩ := spelled
  exact (hasHexMark_iff _).2 ⟨_, among, _, rfl⟩

theorem spelledHex?_eq_some_iff (bs : Bytes) (z : Int) :
    spelledHex? bs = some z ↔ SpellsHex bs z := by
  cases marked : hasHexMark bs with
  | true =>
    rw [spelledHex?_eq_some_iff_of_marked marked]
    refine ⟨.marked, ?_⟩
    rintro (⟨digits, -⟩ | spelled)
    · rw [digits.hasHexMark] at marked
      cases marked
    · exact spelled
  | false =>
    rw [spelledHex?, hexNatural?_of_unmarked marked, map_naturalUpTo?_eq_some_iff (by decide)]
    constructor
    · rintro ⟨n, digits, fits, rfl⟩
      exact .bare digits (Nat.lt_succ_of_le fits)
    · rintro (⟨digits, fits⟩ | spelled)
      · exact ⟨_, digits, Nat.le_of_lt_succ fits, rfl⟩
      · rw [spelled.hasHexMark] at marked
        cases marked

theorem SpellsDecimal.not_mem {bs : Bytes} {z : Int} (spelled : SpellsDecimal bs z) {b : UInt8}
    (noHyphen : b ≠ hyphen) (noPlus : b ≠ plus) (other : digitIn? 10 b = none) : b ∉ bs := by
  cases spelled with
  | unsigned digits => exact digits.not_mem (by decide) other
  | positive digits => simp [noPlus, digits.not_mem (by decide) other]
  | negative digits => simp [noHyphen, digits.not_mem (by decide) other]

theorem SpellsDecimal.hasHexMark {bs : Bytes} {z : Int} (spelled : SpellsDecimal bs z) :
    hasHexMark bs = false := by
  rw [Bool.eq_false_iff, ne_eq, hasHexMark_iff]
  rintro ⟨mark, marked, ds, rfl⟩
  have letter : ∀ mark ∈ hexMarks, ∃ b ∈ mark, b ≠ hyphen ∧ b ≠ plus ∧ digitIn? 10 b = none := by
    decide +kernel
  obtain ⟨b, inside, noHyphen, noPlus, other⟩ := letter mark marked
  exact spelled.not_mem noHyphen noPlus other (List.mem_append_left ds inside)

theorem spelledMarked?_eq_some_iff (bs : Bytes) (z : Int) :
    spelledMarked? bs = some z ↔ SpellsNumber bs z := by
  cases marked : hasHexMark bs with
  | true =>
    rw [spelledMarked?, if_pos marked, spelledHex?_eq_some_iff_of_marked marked]
    refine ⟨.hex, ?_⟩
    rintro (spelled | spelled)
    · exact spelled
    · rw [spelled.hasHexMark] at marked
      cases marked
  | false =>
    rw [spelledMarked?, marked, if_neg (by simp), decimal?_eq_some_iff]
    refine ⟨.decimal, ?_⟩
    rintro (spelled | spelled)
    · rw [spelled.hasHexMark] at marked
      cases marked
    · exact spelled

def narrow (z : Int) : Int :=
  (Int64.ofInt z).toInt

theorem narrow_of_fits {z : Int} (low : -0x8000000000000000 ≤ z) (high : z < 0x8000000000000000) :
    narrow z = z :=
  Int64.toInt_ofInt_of_le low high

theorem SpellsDecimal.narrow {bs : Bytes} {z : Int} (spelled : SpellsDecimal bs z) :
    narrow z = z := by
  cases spelled with
  | unsigned digits fits | positive digits fits => exact narrow_of_fits (by omega) (by omega)
  | negative digits fits => exact narrow_of_fits (by omega) (by omega)

theorem decimal?_eq_map_narrow (bs : Bytes) : decimal? bs = (decimal? bs).map narrow := by
  cases read : decimal? bs with
  | none => rfl
  | some z => rw [Option.map_some, ((decimal?_eq_some_iff bs z).1 read).narrow]

theorem hex?_eq_map_narrow (bs : Bytes) : hex? bs = (spelledHex? bs).map narrow := by
  have same : (fun n => (UInt64.ofNat n).toInt64.toInt) = narrow ∘ Int.ofNat := by
    funext n
    rw [UInt64.toInt64_ofNat', ← Int64.ofInt_eq_ofNat]
    rfl
  rw [hex?, spelledHex?, Option.map_map, same]

theorem marked?_eq_map_narrow (bs : Bytes) : marked? bs = (spelledMarked? bs).map narrow := by
  rw [marked?, spelledMarked?]
  split
  next => exact hex?_eq_map_narrow bs
  next => exact decimal?_eq_map_narrow bs

-- A word of 32 bits does not depend on what narrowing to 64 bits has changed.
theorem int32_narrow (z : Int) : Int32.ofInt (narrow z) = Int32.ofInt z := by
  rw [narrow, Int32.ofInt_int64ToInt, Int64.toInt32_ofInt]

theorem uint32_narrow (z : Int) : UInt32.ofInt (narrow z) = UInt32.ofInt z := by
  have same : narrow z % 2 ^ 32 = z % 2 ^ 32 := by
    have remainder : narrow z % (2 ^ 64 : Nat) = z % (2 ^ 64 : Nat) := by
      rw [narrow, Int64.toInt_ofInt]
      exact Int.bmod_emod
    omega
  rw [UInt32.ofInt, same]
  rfl

def startsNumeral (b : UInt8) : Bool :=
  b == plus || b == hyphen || (digitIn? 10 b).isSome

theorem Digits.startsNumeral {ds : Bytes} {n : Nat} (digits : Digits 10 ds n) :
    ∃ b rest, ds = b :: rest ∧ Numeral.startsNumeral b := by
  obtain ⟨b, rest, rfl⟩ := List.exists_cons_of_ne_nil digits.ne_nil
  obtain ⟨d, digit⟩ := digits.isDigit_of_mem List.mem_cons_self
  have read := (digitIn?_eq_some_iff (by decide) b d).2 digit
  exact ⟨b, rest, rfl, by simp [Numeral.startsNumeral, read]⟩

theorem SpellsNumber.startsNumeral {bs : Bytes} {z : Int} (spelled : SpellsNumber bs z) :
    ∃ b rest, bs = b :: rest ∧ Numeral.startsNumeral b := by
  cases spelled with
  | hex spelled =>
    obtain ⟨marked, -, -⟩ := spelled
    have front : ∀ mark ∈ hexMarks, ∃ b rest, mark = b :: rest ∧ Numeral.startsNumeral b := by
      intro mark marked
      simp only [hexMarks, List.mem_cons, List.not_mem_nil, or_false] at marked
      rcases marked with rfl | rfl
      · exact ⟨_, _, rfl, by decide⟩
      · exact ⟨_, _, rfl, by decide⟩
    obtain ⟨b, rest, rfl, starts⟩ := front _ marked
    exact ⟨b, _, rfl, starts⟩
  | decimal spelled =>
    cases spelled with
    | unsigned digits => exact digits.startsNumeral
    | positive digits => exact ⟨_, _, rfl, by decide⟩
    | negative digits => exact ⟨_, _, rfl, by decide⟩

end StackAsm.Numeral
