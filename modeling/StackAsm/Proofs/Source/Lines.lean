import StackAsm.Source.Line

set_option autoImplicit false

namespace StackAsm

open Ascii

def terminated (ls : List Bytes) : Bytes :=
  ls.flatMap (· ++ [lineFeed])

-- The sources with some lines: the last is closed by a line feed or by the end.
def sourcesOf (ls : List Bytes) : List Bytes :=
  [terminated ls, [lineFeed].intercalate ls]

def chomp (l : Bytes) : Bytes :=
  if l.getLast? = some carriageReturn then l.dropLast else l

theorem chomp_of_not_mem {l : Bytes} (absent : carriageReturn ∉ l) : chomp l = l := by
  rw [chomp, if_neg]
  intro last
  exact absent (List.mem_of_getLast? last)

theorem splitOn_terminated {ls : List Bytes} (unbroken : ∀ l ∈ ls, lineFeed ∉ l) :
    (terminated ls).splitOn lineFeed = ls ++ [[]] := by
  induction ls with
  | nil => rfl
  | cons l ls ih =>
    rw [List.forall_mem_cons] at unbroken
    have first : terminated (l :: ls) = l ++ lineFeed :: terminated ls := by simp [terminated]
    rw [first, List.splitOn_append_cons_self_of_not_mem unbroken.1, ih unbroken.2]
    rfl

theorem sourceLines_terminated {ls : List Bytes} (unbroken : ∀ l ∈ ls, lineFeed ∉ l) :
    sourceLines (terminated ls) = ls.map chomp := by
  simp only [sourceLines, splitOn_terminated unbroken, List.getLast?_concat, List.dropLast_concat,
    ↓reduceIte]
  rfl

theorem sourceLines_intercalate {ls : List Bytes} (unbroken : ∀ l ∈ ls, lineFeed ∉ l)
    (ended : ls.getLast? ≠ some []) : sourceLines ([lineFeed].intercalate ls) = ls.map chomp := by
  by_cases none : ls = []
  next =>
    rw [none]
    rfl
  next =>
    simp only [sourceLines, List.splitOn_intercalate lineFeed unbroken none, ended, ↓reduceIte]
    rfl

theorem sourceLines_of_mem_sourcesOf {ls : List Bytes} {data : Bytes}
    (written : data ∈ sourcesOf ls) (unbroken : ∀ l ∈ ls, lineFeed ∉ l)
    (ended : ls.getLast? ≠ some []) : sourceLines data = ls.map chomp := by
  simp only [sourcesOf, List.mem_cons, List.not_mem_nil, or_false] at written
  rcases written with rfl | rfl
  · exact sourceLines_terminated unbroken
  · exact sourceLines_intercalate unbroken ended

def Closed (s : Bytes) : Prop :=
  s = [] ∨ s.getLast? = some lineFeed

theorem Closed.eq_nil_or_concat {s : Bytes} (closed : Closed s) :
    s = [] ∨ ∃ body, s = body ++ [lineFeed] := by
  rcases closed with rfl | last
  · exact .inl rfl
  · exact .inr (List.getLast?_eq_some_iff.1 last)

theorem sourceLines_append_cons (body rest : Bytes) :
    sourceLines (body ++ lineFeed :: rest) =
      (body.splitOn lineFeed).map chomp ++ sourceLines rest := by
  -- What stands after the last line feed is the same part, with the body before it or not.
  obtain ⟨front, last, parts⟩ :=
    (List.eq_nil_or_concat _).resolve_left (List.splitOn_ne_nil lineFeed rest)
  rw [List.concat_eq_append] at parts
  simp only [sourceLines, List.splitOn_append_cons_self, parts, ← List.append_assoc,
    List.getLast?_concat, List.dropLast_concat]
  by_cases ended : last = []
  next =>
    simp only [ended, ↓reduceIte, List.map_append]
    rfl
  next =>
    simp only [Option.some.injEq, ended, ↓reduceIte, List.map_append, List.append_assoc]
    rfl

theorem sourceLines_append {s : Bytes} (closed : Closed s) (rest : Bytes) :
    sourceLines (s ++ rest) = sourceLines s ++ sourceLines rest := by
  rcases closed.eq_nil_or_concat with rfl | ⟨body, rfl⟩
  · rfl
  · have alone := sourceLines_append_cons body []
    rw [List.append_assoc, List.singleton_append, sourceLines_append_cons, alone,
      List.append_assoc]
    rfl

theorem length_splitOn (sep : UInt8) (bs : Bytes) : (bs.splitOn sep).length = bs.count sep + 1 := by
  induction bs with
  | nil => rfl
  | cons b bs ih =>
    by_cases here : b = sep
    next => simp [List.splitOn_cons_eq_if_modifyHead, here, ih]
    next => simp [List.splitOn_cons_eq_if_modifyHead, here, ih]

theorem length_sourceLines_of_closed {s : Bytes} (closed : Closed s) :
    (sourceLines s).length = s.count lineFeed := by
  rcases closed.eq_nil_or_concat with rfl | ⟨body, rfl⟩
  · rfl
  · have none : sourceLines [] = [] := rfl
    rw [sourceLines_append_cons, none, List.append_nil, List.length_map, length_splitOn]
    simp

theorem exists_closed_append (data : Bytes) :
    ∃ s rest, data = s ++ rest ∧ Closed s ∧ lineFeed ∉ rest := by
  induction data with
  | nil => exact ⟨[], [], rfl, .inl rfl, List.not_mem_nil⟩
  | cons b data ih =>
    obtain ⟨s, rest, rfl, closed, unbroken⟩ := ih
    rcases closed.eq_nil_or_concat with rfl | ⟨body, rfl⟩
    · by_cases here : b = lineFeed
      next => exact ⟨[b], rest, rfl, .inr (by simp [here]), unbroken⟩
      next => exact ⟨[], b :: rest, rfl, .inl rfl, by simp [Ne.symm here, unbroken]⟩
    · exact ⟨b :: (body ++ [lineFeed]), rest, rfl, .inr (List.getLast?_concat (l := b :: body)),
        unbroken⟩

theorem sourceLines_of_unbroken {line : Bytes} (unbroken : lineFeed ∉ line) :
    sourceLines line = if line = [] then [] else [chomp line] := by
  have single : line.splitOn lineFeed = [line] := List.splitOn_eq_singleton unbroken
  by_cases empty : line = []
  next =>
    rw [empty]
    rfl
  next =>
    simp only [sourceLines, single, empty, List.getLast?_singleton, Option.some.injEq, ↓reduceIte]
    rfl

-- Induction along the lines of a source, of which only the last has no line feed.
@[elab_as_elim]
theorem induction_lines {motive : Bytes → Prop} (last : ∀ line, lineFeed ∉ line → motive line)
    (line : ∀ line rest, lineFeed ∉ line → motive rest → motive (line ++ lineFeed :: rest))
    (data : Bytes) : motive data := by
  induction size : data.length using Nat.strongRecOn generalizing data with
  | _ n ih =>
    by_cases broken : lineFeed ∈ data
    next =>
      obtain ⟨first, rest, rfl, unbroken⟩ := List.eq_append_cons_of_mem broken
      have shorter : rest.length < n := by
        rw [List.length_append, List.length_cons] at size
        omega
      exact line first rest unbroken (ih _ shorter rest rfl)
    next => exact last data broken

theorem not_mem_of_mem_splitOn {sep : UInt8} {bs part : Bytes} (member : part ∈ bs.splitOn sep) :
    sep ∉ part := by
  induction bs generalizing part with
  | nil =>
    obtain rfl : part = [] := List.mem_singleton.1 member
    exact List.not_mem_nil
  | cons b bs ih =>
    rw [List.splitOn_cons_eq_if_modifyHead] at member
    by_cases here : b = sep
    next =>
      rw [if_pos (by simp [here]), List.mem_cons] at member
      rcases member with rfl | later
      · exact List.not_mem_nil
      · exact ih later
    next =>
      obtain ⟨first, parts, split⟩ := List.exists_cons_of_ne_nil (List.splitOn_ne_nil sep bs)
      rw [if_neg (by simp [here]), split, List.modifyHead_cons, List.mem_cons] at member
      rw [split] at ih
      rcases member with rfl | later
      · exact List.not_mem_cons_of_ne_of_not_mem (Ne.symm here) (ih List.mem_cons_self)
      · exact ih (List.mem_cons_of_mem first later)

theorem lineFeed_not_mem_of_mem_sourceLines {data line : Bytes} (member : line ∈ sourceLines data) :
    lineFeed ∉ line := by
  simp only [sourceLines, List.mem_map] at member
  obtain ⟨part, among, rfl⟩ := member
  have whole : part ∈ data.splitOn lineFeed := by
    split at among
    next => exact (List.dropLast_sublist _).subset among
    next => exact among
  intro broken
  apply not_mem_of_mem_splitOn whole
  split at broken
  next => exact (List.dropLast_sublist _).subset broken
  next => exact broken

theorem length_sourceLines (data : Bytes) : (sourceLines data).length =
    data.count lineFeed + if data = [] ∨ data.getLast? = some lineFeed then 0 else 1 := by
  obtain ⟨s, rest, rfl, closed, unbroken⟩ := exists_closed_append data
  rw [sourceLines_append closed, List.length_append, length_sourceLines_of_closed closed,
    sourceLines_of_unbroken unbroken, List.count_append, List.count_eq_zero.2 unbroken]
  rcases List.eq_nil_or_concat rest with rfl | ⟨front, last, rfl⟩
  · rw [Closed] at closed
    rw [List.append_nil, if_pos rfl, if_pos closed]
    rfl
  · rw [List.concat_eq_append] at unbroken ⊢
    have visible : last ≠ lineFeed := fun same => unbroken (by simp [same])
    rw [if_neg (by simp), if_neg (by simp [← List.append_assoc, visible])]
    rfl

end StackAsm
