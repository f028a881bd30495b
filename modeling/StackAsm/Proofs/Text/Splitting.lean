import StackAsm.Proofs.Text.Blank

set_option autoImplicit false

/-!
The cuts that white space makes in arbitrary bytes. White space is told by the bytes that spell it,
wherever they stand, so it makes no difference from which end a text is read: trimming and splitting
agree on what they cut at.
-/

namespace StackAsm

open Utf8

namespace Utf8

theorem ofPieces_of_pieces {bs : Bytes} {ps qs : List Piece} {c : Char}
    (split : pieces bs = ps ++ .char c :: qs) :
    bs = ofPieces ps ++ (String.utf8EncodeChar c ++ ofPieces qs) := by
  rw [← ofPieces_pieces bs, split, ofPieces_append, ofPieces_cons, Piece.bytes]

theorem prefix_iff_head?_pieces (c : Char) (bs : Bytes) :
    String.utf8EncodeChar c <+: bs ↔ (pieces bs).head? = some (.char c) := by
  constructor
  · rintro ⟨rest, rfl⟩
    rw [pieces_char_append, List.head?_cons]
  · intro first
    obtain ⟨qs, split⟩ := List.head?_eq_some_iff.1 first
    have whole := @ofPieces_of_pieces bs [] qs c split
    exact ⟨ofPieces qs, whole.symm⟩

-- The character found by stepping back from the end is the last one found from the front.
theorem suffix_iff_getLast?_pieces (c : Char) (bs : Bytes) :
    String.utf8EncodeChar c <:+ bs ↔ (pieces bs).getLast? = some (.char c) := by
  constructor
  · rintro ⟨front, rfl⟩
    have whole := pieces_append_char front c []
    rw [List.append_nil] at whole
    rw [whole, pieces_nil, List.getLast?_concat]
  · intro last
    obtain ⟨ps, split⟩ := List.getLast?_eq_some_iff.1 last
    have whole := ofPieces_of_pieces split
    rw [ofPieces_nil, List.append_nil] at whole
    exact ⟨ofPieces ps, whole.symm⟩

theorem infix_iff_mem_pieces (c : Char) (bs : Bytes) :
    String.utf8EncodeChar c <:+: bs ↔ .char c ∈ pieces bs := by
  constructor
  · rintro ⟨front, rest, rfl⟩
    rw [List.append_assoc, pieces_append_char]
    simp
  · intro member
    obtain ⟨ps, qs, split⟩ := List.append_of_mem member
    refine ⟨ofPieces ps, ofPieces qs, ?_⟩
    rw [List.append_assoc, ← ofPieces_of_pieces split]

theorem pieces_of_cut {bs : Bytes} {ps qs : List Piece} (cut : pieces bs = ps ++ qs) :
    pieces (ofPieces ps) = ps ∧ pieces (ofPieces qs) = qs := by
  have whole {bs : Bytes} (same : qs = pieces bs) : pieces (ofPieces qs) = qs := by
    rw [same, ofPieces_pieces]
  induction bs using induction_pieces generalizing ps with
  | nil =>
    obtain ⟨rfl, rfl⟩ := List.append_eq_nil_iff.1 cut.symm
    exact ⟨rfl, rfl⟩
  | char c rest ih =>
    cases ps with
    | nil => exact ⟨rfl, whole cut.symm⟩
    | cons p ps =>
      rw [pieces_char_append, List.cons_append, List.cons.injEq] at cut
      obtain ⟨rfl, later⟩ := cut
      rw [ofPieces_cons, Piece.bytes, pieces_char_append, (ih later).1]
      exact ⟨rfl, (ih later).2⟩
  | stray b rest none ih =>
    cases ps with
    | nil => exact ⟨rfl, whole cut.symm⟩
    | cons p ps =>
      rw [pieces_stray_cons none, List.cons_append, List.cons.injEq] at cut
      obtain ⟨rfl, later⟩ := cut
      -- With fewer bytes behind it, a stray byte starts no character either.
      have still : firstChar? (b :: ofPieces ps) = Option.none := by
        cases found : firstChar? (b :: ofPieces ps) with
        | none => rfl
        | some c =>
          obtain ⟨more, start⟩ := exists_append_of_firstChar? found
          have longer : b :: rest = String.utf8EncodeChar c ++ (more ++ ofPieces qs) := by
            rw [← List.append_assoc, ← start, List.cons_append, ← ofPieces_append, ← later,
              ofPieces_pieces]
          rw [longer, firstChar?_append] at none
          cases none
      have front : ofPieces (.stray b :: ps) = b :: ofPieces ps := ofPieces_cons _ _
      rw [front, pieces_stray_cons still, (ih later).1]
      exact ⟨rfl, (ih later).2⟩

end Utf8

def StartsBlank (bs : Bytes) : Prop :=
  ∃ c, isBlank c ∧ String.utf8EncodeChar c <+: bs

def EndsBlank (bs : Bytes) : Prop :=
  ∃ c, isBlank c ∧ String.utf8EncodeChar c <:+ bs

def HoldsBlank (bs : Bytes) : Prop :=
  ∃ c, isBlank c ∧ String.utf8EncodeChar c <:+: bs

def Trimmed (bs : Bytes) : Prop :=
  ¬StartsBlank bs ∧ ¬EndsBlank bs

theorem exists_blank_iff (P : Piece → Prop) :
    (∃ c, isBlank c ∧ P (.char c)) ↔ ∃ p, P p ∧ p.isBlank := by
  constructor
  · rintro ⟨c, blank, holds⟩
    exact ⟨.char c, holds, blank⟩
  · rintro ⟨p, holds, blank⟩
    obtain ⟨c, rfl⟩ := exists_char_of_isBlank blank
    exact ⟨c, blank, holds⟩

theorem startsBlank_iff (bs : Bytes) :
    StartsBlank bs ↔ ∃ p, (pieces bs).head? = some p ∧ p.isBlank := by
  simp only [StartsBlank, prefix_iff_head?_pieces]
  exact exists_blank_iff fun p => (pieces bs).head? = some p

theorem endsBlank_iff (bs : Bytes) :
    EndsBlank bs ↔ ∃ p, (pieces bs).getLast? = some p ∧ p.isBlank := by
  simp only [EndsBlank, suffix_iff_getLast?_pieces]
  exact exists_blank_iff fun p => (pieces bs).getLast? = some p

theorem holdsBlank_iff (bs : Bytes) : HoldsBlank bs ↔ ∃ p ∈ pieces bs, p.isBlank := by
  simp only [HoldsBlank, infix_iff_mem_pieces]
  exact exists_blank_iff (· ∈ pieces bs)

theorem isBlank_of_not_holdsBlank {bs : Bytes} (solid : ¬HoldsBlank bs) :
    ∀ p ∈ pieces bs, p.isBlank = false := by
  intro p member
  cases blank : p.isBlank with
  | false => rfl
  | true => exact absurd ((holdsBlank_iff bs).2 ⟨p, member, blank⟩) solid

theorem StartsBlank.append {xs : Bytes} (starts : StartsBlank xs) (ys : Bytes) :
    StartsBlank (xs ++ ys) := by
  obtain ⟨c, blank, front⟩ := starts
  exact ⟨c, blank, front.trans (List.prefix_append xs ys)⟩

theorem EndsBlank.append {ys : Bytes} (ends : EndsBlank ys) (xs : Bytes) :
    EndsBlank (xs ++ ys) := by
  obtain ⟨c, blank, rear⟩ := ends
  exact ⟨c, blank, rear.trans (List.suffix_append xs ys)⟩

theorem pieces_ne_nil {bs : Bytes} (nonempty : bs ≠ []) : pieces bs ≠ [] := by
  intro none
  have same := ofPieces_pieces bs
  rw [none] at same
  exact nonempty same.symm

theorem exists_head?_pieces {bs : Bytes} (nonempty : bs ≠ []) : ∃ p, (pieces bs).head? = some p :=
  ⟨_, List.head?_eq_some_head (pieces_ne_nil nonempty)⟩

theorem startsBlank_of_isBlankText {v : Bytes} (blank : isBlankText v) (nonempty : v ≠ []) :
    StartsBlank v := by
  obtain ⟨p, first⟩ := exists_head?_pieces nonempty
  exact (startsBlank_iff v).2 ⟨p, first, isBlank_of_mem_pieces blank p (List.mem_of_head? first)⟩

theorem endsBlank_of_isBlankText {v : Bytes} (blank : isBlankText v) (nonempty : v ≠ []) :
    EndsBlank v := by
  have last := List.getLast?_eq_some_getLast (pieces_ne_nil nonempty)
  exact (endsBlank_iff v).2 ⟨_, last, isBlank_of_mem_pieces blank _ (List.mem_of_getLast? last)⟩

section Strip

variable {α : Type} (p : α → Bool) (xs : List α)

theorem dropWhile_eq_strip_append :
    xs.dropWhile p = strip p xs ++ ((xs.dropWhile p).reverse.takeWhile p).reverse := by
  rw [strip, ← List.reverse_append, List.takeWhile_append_dropWhile, List.reverse_reverse]

theorem exists_append_strip : ∃ front rear, (∀ x ∈ front, p x) ∧ (∀ x ∈ rear, p x) ∧
    xs = front ++ (strip p xs ++ rear) := by
  refine ⟨xs.takeWhile p, ((xs.dropWhile p).reverse.takeWhile p).reverse,
    List.all_eq_true.1 List.all_takeWhile, ?_, ?_⟩
  · intro x member
    exact List.all_eq_true.1 List.all_takeWhile x (List.mem_reverse.1 member)
  · rw [← dropWhile_eq_strip_append, List.takeWhile_append_dropWhile]

theorem of_head?_dropWhile {x : α} (first : (xs.dropWhile p).head? = some x) : p x = false := by
  have stopped := List.head?_dropWhile_not p xs
  rwa [first] at stopped

theorem of_head?_strip {x : α} (first : (strip p xs).head? = some x) : p x = false := by
  apply of_head?_dropWhile p xs
  rw [dropWhile_eq_strip_append, List.head?_append, first, Option.some_or]

theorem of_getLast?_strip {x : α} (last : (strip p xs).getLast? = some x) : p x = false := by
  rw [strip, List.getLast?_reverse] at last
  exact of_head?_dropWhile p _ last

end Strip

theorem exists_trim (bs : Bytes) : pieces (trim bs) = strip Piece.isBlank (pieces bs) ∧
    ∃ w v, isBlankText w ∧ isBlankText v ∧ bs = w ++ (trim bs ++ v) := by
  obtain ⟨front, rear, before, behind, split⟩ := exists_append_strip Piece.isBlank (pieces bs)
  have outer := pieces_of_cut split
  have inner := pieces_of_cut outer.2
  refine ⟨inner.1, ofPieces front, ofPieces rear, ?_, ?_, ?_⟩
  · rwa [isBlankText, outer.1, List.all_eq_true]
  · rwa [isBlankText, inner.2, List.all_eq_true]
  · rw [trim, ← ofPieces_append, ← ofPieces_append, ← split, ofPieces_pieces]

theorem trimmed_trim (bs : Bytes) : Trimmed (trim bs) := by
  rw [Trimmed, startsBlank_iff, endsBlank_iff, (exists_trim bs).1]
  constructor
  · rintro ⟨p, first, blank⟩
    rw [of_head?_strip _ _ first] at blank
    cases blank
  · rintro ⟨p, last, blank⟩
    rw [of_getLast?_strip _ _ last] at blank
    cases blank

theorem trim_of_trimmed {t : Bytes} (trimmed : Trimmed t) : trim t = t := by
  rw [Trimmed, startsBlank_iff, endsBlank_iff] at trimmed
  rw [trim, strip_of_ends, ofPieces_pieces]
  · intro p first
    exact Bool.eq_false_iff.2 fun blank => trimmed.1 ⟨p, first, blank⟩
  · intro p last
    exact Bool.eq_false_iff.2 fun blank => trimmed.2 ⟨p, last, blank⟩

def TrimOf (t bs : Bytes) : Prop :=
  Trimmed t ∧ ∃ w v, isBlankText w ∧ isBlankText v ∧ bs = w ++ (t ++ v)

theorem trimOf_iff (t bs : Bytes) : TrimOf t bs ↔ t = trim bs := by
  constructor
  · rintro ⟨trimmed, w, v, before, behind, rfl⟩
    rw [trim_append before behind, trim_of_trimmed trimmed]
  · rintro rfl
    exact ⟨trimmed_trim bs, (exists_trim bs).2⟩

def EndsToken (after : Bytes) : Prop :=
  after = [] ∨ StartsBlank after

theorem pieces_append_of_endsToken (t : Bytes) {after : Bytes} (ends : EndsToken after) :
    pieces (t ++ after) = pieces t ++ pieces after := by
  apply pieces_append_of_head
  rintro b stray
  rcases ends with rfl | starts
  · cases stray
  · obtain ⟨p, first, blank⟩ := (startsBlank_iff after).1 starts
    obtain ⟨c, rfl⟩ := exists_char_of_isBlank blank
    rw [first] at stray
    cases stray

structure UpToBlank (t bs : Bytes) : Prop where
  ends : ∃ after, bs = t ++ after ∧ EndsToken after
  first : ∀ front after, bs = front ++ after → StartsBlank after → t.length ≤ front.length

theorem upToBlank_append {t after : Bytes} (solid : ¬HoldsBlank t) (ends : EndsToken after) :
    UpToBlank t (t ++ after) := by
  refine ⟨⟨after, rfl, ends⟩, ?_⟩
  rintro front _ same ⟨c, blank, rest, rfl⟩
  have cut : pieces t ++ pieces after = pieces front ++ .char c :: pieces rest := by
    rw [← pieces_append_of_endsToken t ends, same, pieces_append_char]
  rcases List.append_eq_append_iff.1 cut with ⟨more, longer, -⟩ | ⟨more, longer, next⟩
  · have whole := congrArg ofPieces longer
    rw [ofPieces_pieces, ofPieces_append, ofPieces_pieces] at whole
    rw [whole, List.length_append]
    exact Nat.le_add_right _ _
  · cases more with
    | nil =>
      have whole := congrArg ofPieces longer
      rw [List.append_nil, ofPieces_pieces, ofPieces_pieces] at whole
      exact Nat.le_of_eq (congrArg List.length whole)
    | cons p more =>
      -- The white space would stand inside `t`.
      rw [List.cons_append, List.cons.injEq] at next
      have inside : p ∈ pieces t := by simp [longer]
      exact absurd ((holdsBlank_iff t).2 ⟨p, inside, next.1 ▸ blank⟩) solid

theorem tokens_of_solid {t : Bytes} (nonempty : t ≠ []) (solid : ¬HoldsBlank t) :
    tokens t = [t] := by
  rw [tokens, List.splitOnP_eq_singleton (isBlank_of_not_holdsBlank solid),
    List.filter_cons_of_pos (by simpa using pieces_ne_nil nonempty), List.map_cons, ofPieces_pieces]
  rfl

theorem tokens_append_char {c : Char} (blank : isBlank c) (xs ys : Bytes) :
    tokens (xs ++ (String.utf8EncodeChar c ++ ys)) = tokens xs ++ tokens ys := by
  have isBlank : (Piece.char c).isBlank = true := blank
  rw [tokens, pieces_append_char, List.splitOnP_append_cons _ _ isBlank, List.filter_append,
    List.map_append, tokens, tokens]

theorem tokens_append_of_endsToken {t after : Bytes} (nonempty : t ≠ []) (solid : ¬HoldsBlank t)
    (ends : EndsToken after) : tokens (t ++ after) = t :: tokens after := by
  have single := tokens_of_solid nonempty solid
  rcases ends with rfl | ⟨c, blank, rest, rfl⟩
  · rw [List.append_nil, single]
    rfl
  · have alone : tokens (String.utf8EncodeChar c ++ rest) = tokens rest :=
      tokens_append_char blank [] rest
    rw [tokens_append_char blank, single, alone, List.singleton_append]

theorem tokens_append_blank {t v : Bytes} (token : isToken t) (blank : isBlankText v)
    (nonempty : v ≠ []) (ys : Bytes) : tokens (t ++ (v ++ ys)) = t :: tokens ys := by
  have plain := isPlain_of_isToken token
  have ascii : ∀ b ∈ t, b < 0x80 := fun b member => ascii_of_isPlain b (plain b member)
  have solid : ¬HoldsBlank t := by
    rw [holdsBlank_iff, pieces_of_ascii ascii]
    rintro ⟨_, member, white⟩
    obtain ⟨b, inside, rfl⟩ := List.mem_map.1 member
    rw [isBlank_of_isPlain b (plain b inside)] at white
    cases white
  have ends : EndsToken (v ++ ys) := .inr ((startsBlank_of_isBlankText blank nonempty).append ys)
  rw [tokens_append_of_endsToken (ne_nil_of_isToken token) solid ends, tokens_blank_append blank]

theorem tokens_of_isBlankText {w : Bytes} (blank : isBlankText w) : tokens w = [] := by
  have none := tokens_blank_append blank []
  rwa [List.append_nil] at none

theorem exists_cut (p : Piece → Bool) (bs : Bytes) : ∃ front rest, bs = front ++ rest ∧
    (∀ q ∈ pieces front, p q) ∧ ∀ q, (pieces rest).head? = some q → p q = false := by
  have split := List.takeWhile_append_dropWhile (p := p) (l := pieces bs)
  have cut := pieces_of_cut split.symm
  refine ⟨ofPieces ((pieces bs).takeWhile p), ofPieces ((pieces bs).dropWhile p), ?_, ?_, ?_⟩
  · rw [← ofPieces_append, split, ofPieces_pieces]
  · rw [cut.1]
    exact List.all_eq_true.1 List.all_takeWhile
  · rw [cut.2]
    exact fun q => of_head?_dropWhile p (pieces bs)

theorem blank_or_exists_token (bs : Bytes) : isBlankText bs ∨ ∃ w t after, isBlankText w ∧ t ≠ [] ∧
    ¬HoldsBlank t ∧ EndsToken after ∧ bs = w ++ (t ++ after) := by
  obtain ⟨w, body, rfl, white, visible⟩ := exists_cut Piece.isBlank bs
  rw [← List.all_eq_true] at white
  by_cases blank : body = []
  next =>
    left
    rwa [blank, List.append_nil]
  next =>
    right
    obtain ⟨p, first⟩ := exists_head?_pieces blank
    obtain ⟨t, after, rfl, solid, ends⟩ := exists_cut (fun q => !q.isBlank) body
    simp only [Bool.not_eq_true', Bool.not_eq_false'] at solid ends
    refine ⟨w, t, after, white, ?_, ?_, ?_, rfl⟩
    · rintro rfl
      have isBlank := ends p first
      rw [visible p first] at isBlank
      cases isBlank
    · rw [holdsBlank_iff]
      rintro ⟨q, member, isBlank⟩
      rw [solid q member] at isBlank
      cases isBlank
    · rw [EndsToken, startsBlank_iff, Classical.or_iff_not_imp_left]
      intro nonempty
      obtain ⟨q, next⟩ := exists_head?_pieces nonempty
      exact ⟨q, next, ends q next⟩

theorem exists_first_token {text : Bytes} (trimmed : Trimmed text) (nonempty : text ≠ []) :
    ∃ t after, t ≠ [] ∧ ¬HoldsBlank t ∧ EndsToken after ∧ text = t ++ after := by
  rcases blank_or_exists_token text with blank | ⟨w, t, after, white, visible, solid, ends, rfl⟩
  · exact absurd (startsBlank_of_isBlankText blank nonempty) trimmed.1
  · have none : w = [] := by
      apply Classical.byContradiction
      intro some
      exact trimmed.1 ((startsBlank_of_isBlankText white some).append (t ++ after))
    rw [none]
    exact ⟨t, after, visible, solid, ends, rfl⟩

-- Induction along the tokens of a text.
@[elab_as_elim]
theorem induction_tokens {motive : Bytes → Prop} (blank : ∀ w, isBlankText w → motive w)
    (token : ∀ w t after, isBlankText w → t ≠ [] → ¬HoldsBlank t → EndsToken after →
      motive after → motive (w ++ (t ++ after)))
    (bs : Bytes) : motive bs := by
  induction size : bs.length using Nat.strongRecOn generalizing bs with
  | _ n ih =>
    rcases blank_or_exists_token bs with white | ⟨w, t, after, white, nonempty, solid, ends, rfl⟩
    · exact blank bs white
    · have positive := List.length_pos_iff.2 nonempty
      have shorter : after.length < n := by
        rw [List.length_append, List.length_append] at size
        omega
      exact token w t after white nonempty solid ends (ih _ shorter after rfl)

theorem solid_of_mem_tokens {bs t : Bytes} (member : t ∈ tokens bs) : t ≠ [] ∧ ¬HoldsBlank t := by
  induction bs using induction_tokens with
  | blank w white =>
    rw [tokens_of_isBlankText white] at member
    cases member
  | token w u after white nonempty solid ends ih =>
    rw [tokens_blank_append white, tokens_append_of_endsToken nonempty solid ends,
      List.mem_cons] at member
    rcases member with rfl | later
    · exact ⟨nonempty, solid⟩
    · exact ih later

end StackAsm
