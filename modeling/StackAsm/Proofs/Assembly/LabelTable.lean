import StackAsm.Assembly.Label

set_option autoImplicit false

namespace StackAsm

theorem sizeOfLines_append (ls ms : List Line) :
    sizeOfLines (ls ++ ms) = sizeOfLines ls + sizeOfLines ms := by
  rw [sizeOfLines, List.map_append, total_append, Nat.mul_add]
  rfl

namespace LabelTable

theorem lookup_append (t u : LabelTable) (name : Bytes) :
    (t ++ u).lookup name = (t.lookup name).or (u.lookup name) :=
  List.find?_append

theorem lookup_singleton (l : Label) (name : Bytes) :
    lookup [l] name = if l.name = name then some l else none := by
  by_cases same : l.name = name <;> simp [lookup, same]

theorem bind_of_bound {t : LabelTable} {l first : Label} (bound : t.lookup l.name = some first) :
    t.bind l = t := by
  rw [bind, bound]
  rfl

theorem bind_of_free {t : LabelTable} {l : Label} (free : t.lookup l.name = none) :
    t.bind l = t ++ [l] := by
  rw [bind, free]
  rfl

theorem bind_sublist (t : LabelTable) (l : Label) : List.Sublist (t.bind l) (t ++ [l]) := by
  rw [bind]
  split
  next => exact List.sublist_append_left t [l]
  next => exact List.Sublist.refl _

theorem foldl_bind_sublist (t : LabelTable) (ds : List Label) :
    List.Sublist (ds.foldl bind t) (t ++ ds) := by
  induction ds generalizing t with
  | nil => simp
  | cons d ds ih =>
    have entered := (bind_sublist t d).append_right ds
    simpa using (ih (t.bind d)).trans entered

theorem lookup_bind (t : LabelTable) (l : Label) (name : Bytes) :
    (t.bind l).lookup name = (t.lookup name).or (lookup [l] name) := by
  cases found : t.lookup l.name with
  | none => rw [bind_of_free found, lookup_append]
  | some first =>
    rw [bind_of_bound found, lookup_singleton]
    by_cases same : l.name = name
    next => rw [← same, found, Option.some_or]
    next => rw [if_neg same, Option.or_none]

theorem lookup_foldl_bind (t : LabelTable) (ds : List Label) (name : Bytes) :
    (ds.foldl bind t).lookup name = (t.lookup name).or (lookup ds name) := by
  induction ds generalizing t with
  | nil => exact Option.or_none.symm
  | cons d ds ih =>
    have first : lookup (d :: ds) name = (lookup [d] name).or (lookup ds name) :=
      lookup_append [d] ds name
    rw [List.foldl_cons, ih, lookup_bind, first, Option.or_assoc]

-- Declarations that meet a table add to it what they would enter on their own, less the names that
-- are taken.
theorem foldl_bind (t : LabelTable) (ds : List Label) :
    ds.foldl bind t = t ++ (Label.table ds).filter fun d => (t.lookup d.name).isNone := by
  induction ds generalizing t with
  | nil => simp [Label.table]
  | cons d ds ih =>
    have alone : Label.table (d :: ds) =
        d :: (Label.table ds).filter fun e => (lookup [d] e.name).isNone :=
      ih [d]
    rw [List.foldl_cons, ih, alone]
    cases found : t.lookup d.name with
    | none =>
      rw [bind_of_free found, List.filter_cons_of_pos (by simp [found]), List.filter_filter,
        List.append_assoc]
      simp only [lookup_append, Option.isNone_or, List.singleton_append]
    | some first =>
      rw [bind_of_bound found, List.filter_cons_of_neg (by simp [found]),
        List.filter_filter]
      -- A name that is free in the table is not the name of `d`, which is taken.
      congr 1
      apply List.filter_congr
      intro e _
      rw [lookup_singleton]
      by_cases same : d.name = e.name
      next => simp [← same, found]
      next => simp [same]

end LabelTable

namespace Label

-- A label whose line comes to stand below `lines` more lines, of `bytes` bytes.
def shift (lines bytes : Nat) (l : Label) : Label :=
  ⟨l.name, l.line + lines, l.offset + bytes⟩

theorem table_append (ds es : List Label) : table (ds ++ es) =
    table ds ++ (table es).filter fun e => ((table ds).lookup e.name).isNone := by
  rw [table, List.foldl_append]
  exact LabelTable.foldl_bind (table ds) es

theorem lookup_map_shift (lines bytes : Nat) (t : LabelTable) (name : Bytes) :
    LabelTable.lookup (t.map (shift lines bytes)) name =
      (t.lookup name).map (shift lines bytes) := by
  rw [LabelTable.lookup, List.find?_map]
  rfl

theorem bind_map_shift (lines bytes : Nat) (t : LabelTable) (d : Label) :
    LabelTable.bind (t.map (shift lines bytes)) (d.shift lines bytes) =
      (t.bind d).map (shift lines bytes) := by
  have same := lookup_map_shift lines bytes t d.name
  cases found : t.lookup d.name with
  | none =>
    rw [found, Option.map_none] at same
    rw [LabelTable.bind_of_free found, LabelTable.bind_of_free (l := d.shift lines bytes) same,
      List.map_append]
    rfl
  | some first =>
    rw [found, Option.map_some] at same
    rw [LabelTable.bind_of_bound found, LabelTable.bind_of_bound (l := d.shift lines bytes) same]

theorem table_map_shift (lines bytes : Nat) (ds : List Label) :
    table (ds.map (shift lines bytes)) = (table ds).map (shift lines bytes) := by
  have along (t : LabelTable) : (ds.map (shift lines bytes)).foldl LabelTable.bind
      (t.map (shift lines bytes)) = (ds.foldl LabelTable.bind t).map (shift lines bytes) := by
    induction ds generalizing t with
    | nil => rfl
    | cons d ds ih => rw [List.map_cons, List.foldl_cons, bind_map_shift, ih, List.foldl_cons]
  exact along []

theorem declarationsFrom_append (above offset : Nat) (ls ms : List Line) :
    declarationsFrom above offset (ls ++ ms) = declarationsFrom above offset ls ++
      declarationsFrom (above + ls.length) (offset + sizeOfLines ls) ms := by
  induction ls generalizing above offset with
  | nil => rfl
  | cons l ls ih =>
    -- The lines below `l` start one line further down, behind what `l` counts.
    have lines : above + 1 + ls.length = above + (l :: ls).length := by
      rw [List.length_cons]
      omega
    have bytes : offset + 4 * l.count + sizeOfLines ls = offset + sizeOfLines (l :: ls) := by
      simp only [sizeOfLines, total, List.map_cons, List.foldr_cons]
      omega
    have rest := ih (above + 1) (offset + 4 * l.count)
    rw [lines, bytes] at rest
    cases l with
    | label name => exact congrArg (⟨name, above + 1, offset⟩ :: ·) rest
    | blank | instruction text => exact rest

theorem declarations_append (ls ms : List Line) : declarations (ls ++ ms) =
    declarations ls ++ declarationsFrom ls.length (sizeOfLines ls) ms := by
  simpa only [declarations, Nat.zero_add] using declarationsFrom_append 0 0 ls ms

theorem declarationsFrom_add (above offset lines bytes : Nat) (ls : List Line) :
    declarationsFrom (above + lines) (offset + bytes) ls =
      (declarationsFrom above offset ls).map (shift lines bytes) := by
  induction ls generalizing above offset with
  | nil => rfl
  | cons l ls ih =>
    have rest := ih (above + 1) (offset + 4 * l.count)
    rw [Nat.add_right_comm above, Nat.add_right_comm offset] at rest
    cases l with
    | label name =>
      simp only [declarationsFrom, List.map_cons, rest, shift, Nat.add_right_comm above]
    | blank | instruction text => exact rest

theorem declarationsFrom_eq_map_shift (lines bytes : Nat) (ls : List Line) :
    declarationsFrom lines bytes ls = (declarations ls).map (shift lines bytes) := by
  simpa only [declarations, Nat.zero_add] using declarationsFrom_add 0 0 lines bytes ls

theorem line_lookup_declarationsFrom (above offset : Nat) (ls : List Line) (name : Bytes) :
    (LabelTable.lookup (declarationsFrom above offset ls) name).map Label.line =
      if .label name ∈ ls then some (above + ls.idxOf (.label name) + 1) else none := by
  induction ls generalizing above offset with
  | nil => rfl
  | cons l ls ih =>
    have rest := ih (above + 1) (offset + 4 * l.count)
    by_cases here : l = .label name
    next => simp [here, declarationsFrom, LabelTable.lookup]
    next =>
      have further : (l :: ls).idxOf (.label name) = ls.idxOf (.label name) + 1 := by
        rw [List.idxOf_cons, beq_false_of_ne here, cond_false]
      have below : LabelTable.lookup (declarationsFrom above offset (l :: ls)) name =
          LabelTable.lookup (declarationsFrom (above + 1) (offset + 4 * l.count) ls) name := by
        cases l with
        | label other => simp_all [declarationsFrom, LabelTable.lookup]
        | blank | instruction text => rfl
      rw [below, rest, further]
      simp only [List.mem_cons, Ne.symm here, false_or]
      congr 2
      omega

theorem line_lookup_table (ls : List Line) (name : Bytes) :
    ((table (declarations ls)).lookup name).map Label.line =
      if .label name ∈ ls then some (ls.idxOf (.label name) + 1) else none := by
  have first := line_lookup_declarationsFrom 0 0 ls name
  have empty : LabelTable.lookup [] name = none := rfl
  rw [table, LabelTable.lookup_foldl_bind, empty, Option.none_or]
  simpa only [declarations, Nat.zero_add] using first

theorem warningsFrom_append (file : Bytes) (t : LabelTable) (ds es : List Label) :
    warningsFrom file t (ds ++ es) =
      warningsFrom file t ds ++ warningsFrom file (ds.foldl LabelTable.bind t) es := by
  induction ds generalizing t with
  | nil => rfl
  | cons d ds ih =>
    simp only [List.cons_append, warningsFrom, List.foldl_cons, ih]
    cases t.lookup d.name <;> rfl

end Label

/-- The warning at a line of `below`, where lines `above` come first: it declares a name that a
line further up has declared, and tells the first of all lines that do. -/
def Warning.atLine? (file : Bytes) (above below : List Line) (j : Nat) : Option Warning :=
  match below[j]? with
  | some (.label name) =>
    if .label name ∈ above ++ below.take j then
      some ⟨file, above.length + j + 1, name, (above ++ below).idxOf (.label name) + 1⟩
    else none
  | _ => none

theorem Warning.atLine?_cons (file : Bytes) (above : List Line) (l : Line) (below : List Line)
    (j : Nat) : atLine? file above (l :: below) (j + 1) = atLine? file (above ++ [l]) below j := by
  have number : above.length + (j + 1) + 1 = (above ++ [l]).length + j + 1 := by
    rw [List.length_append, List.length_singleton]
    omega
  simp only [atLine?, List.getElem?_cons_succ, List.take_succ_cons, List.append_assoc,
    List.singleton_append, number]

namespace Warning

-- What a warning tells: the file, the line, and a text with the name and its first line.
def told (w : Warning) : Bytes × Nat × Bytes :=
  (w.file, w.line, w.message)

def toldAtLine? (file : Bytes) (above below : List Line) (j : Nat) : Option (Bytes × Nat × Bytes) :=
  match below[j]? with
  | some (.label name) =>
    if .label name ∈ above ++ below.take j then
      some (file, above.length + j + 1,
        utf8 "duplicate label " ++ quote name ++ utf8 ", first declared at line " ++
          Numeral.decimal ((above ++ below).idxOf (.label name) + 1))
    else none
  | _ => none

theorem map_told_atLine? (file : Bytes) (above below : List Line) (j : Nat) :
    (atLine? file above below j).map told = toldAtLine? file above below j := by
  rw [atLine?, toldAtLine?]
  split
  next =>
    split
    next => rfl
    next => rfl
  next => rfl

theorem map_told_filterMap (file : Bytes) (above below : List Line) (js : List Nat) :
    (js.filterMap (atLine? file above below)).map told =
      js.filterMap (toldAtLine? file above below) := by
  rw [List.map_filterMap]
  exact congrArg (js.filterMap ·) (funext (map_told_atLine? file above below))

end Warning

namespace Label

theorem warningsFrom_table_line (file : Bytes) (above : List Line) (l : Line) (below : List Line) :
    warningsFrom file (table (declarations above))
        (declarationsFrom above.length (sizeOfLines above) [l]) =
      (Warning.atLine? file above (l :: below) 0).toList := by
  cases l with
  | blank | instruction text => rfl
  | label name =>
    have first := line_lookup_table above name
    simp only [declarationsFrom, warningsFrom, Warning.atLine?, List.getElem?_cons_zero,
      List.take_zero, List.append_nil, List.idxOf_append]
    by_cases declared : Line.label name ∈ above
    next =>
      rw [if_pos declared] at first
      obtain ⟨d, found, line⟩ := Option.map_eq_some_iff.1 first
      simp [found, line, declared]
    next =>
      rw [if_neg declared, Option.map_eq_none_iff] at first
      simp [first, declared]

theorem warningsFrom_table (file : Bytes) (above below : List Line) :
    warningsFrom file (table (declarations above))
        (declarationsFrom above.length (sizeOfLines above) below) =
      (List.range below.length).filterMap (Warning.atLine? file above below) := by
  -- Line by line: the first line below becomes the last line above, and the table grows with it.
  induction below generalizing above with
  | nil => rfl
  | cons l below ih =>
    have size : (above ++ [l]).length = above.length + [l].length := List.length_append
    have rest := ih (above ++ [l])
    rw [declarations_append, table, List.foldl_append, size, sizeOfLines_append] at rest
    have split := declarationsFrom_append above.length (sizeOfLines above) [l] below
    rw [List.singleton_append] at split
    rw [split, warningsFrom_append, warningsFrom_table_line file above l below]
    simp only [table] at rest ⊢
    rw [rest, List.length_cons, List.range_succ_eq_map, List.filterMap_cons, List.filterMap_map]
    have later : Warning.atLine? file above (l :: below) ∘ Nat.succ =
        Warning.atLine? file (above ++ [l]) below :=
      funext (Warning.atLine?_cons file above l below)
    rw [later]
    cases Warning.atLine? file above (l :: below) 0 <;> rfl

end Label

end StackAsm
