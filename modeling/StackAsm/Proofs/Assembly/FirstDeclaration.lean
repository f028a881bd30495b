import Mathlib.Data.List.Dedup
import StackAsm.Proofs.Assembly.LabelIndex
import StackAsm.Proofs.Assembly.LabelOffset

set_option autoImplicit false

namespace StackAsm

namespace Line

def labelName? : Line → Option Bytes
  | .label name => some name
  | _ => none

def labelNames (ls : List Line) : List Bytes :=
  ls.filterMap labelName?

theorem mem_labelNames {ls : List Line} {name : Bytes} :
    name ∈ labelNames ls ↔ .label name ∈ ls := by
  have declares (l : Line) : l.labelName? = some name ↔ l = .label name := by
    cases l <;> simp [labelName?]
  simp [labelNames, List.mem_filterMap, declares]

end Line

namespace Label

def first (ls : List Line) (name : Bytes) : Label :=
  ⟨name, ls.idxOf (.label name) + 1, 4 * total ((ls.take (ls.idxOf (.label name))).map Line.count)⟩

theorem map_name_declarationsFrom (above offset : Nat) (ls : List Line) :
    (declarationsFrom above offset ls).map Label.name = Line.labelNames ls := by
  induction ls generalizing above offset with
  | nil => rfl
  | cons l ls ih =>
    have rest := ih (above + 1) (offset + 4 * l.count)
    cases l with
    | label name => exact congrArg (name :: ·) rest
    | blank | instruction text => exact rest

theorem pairwise_declarationsFrom (above offset : Nat) (ls : List Line) :
    (declarationsFrom above offset ls).Pairwise fun d e =>
      d.line < e.line ∧ d.offset ≤ e.offset := by
  induction ls generalizing above offset with
  | nil => exact .nil
  | cons l ls ih =>
    have rest := ih (above + 1) (offset + 4 * l.count)
    cases l with
    | blank | instruction text => exact rest
    | label name =>
      refine .cons ?_ rest
      intro d below
      obtain ⟨k, line, -, placed⟩ := exists_line_of_mem_declarationsFrom below
      exact ⟨by simp only; omega, by simp only; omega⟩

theorem lookup_table (ls : List Line) (name : Bytes) :
    (table (declarations ls)).lookup name =
      if .label name ∈ ls then some (first ls name) else none := by
  have line := line_lookup_table ls name
  by_cases declared : Line.label name ∈ ls
  next =>
    simp only [declared, if_true] at line ⊢
    obtain ⟨d, found, number⟩ := Option.map_eq_some_iff.1 line
    have named : d.name = name := by simpa using List.find?_some found
    -- The entry stands at the line that is known to be the first, so it has the bytes above that.
    obtain ⟨k, here, -, placed⟩ := exists_line_of_mem_declarationsFrom
      (mem_of_mem_table (List.mem_of_find?_eq_some found))
    obtain rfl : k = ls.idxOf (.label name) := by omega
    obtain ⟨_, _, _⟩ := d
    simp_all [first]
  next =>
    simpa [declared] using line

theorem length_foldl_bind_add_warnings (file : Bytes) (t : LabelTable) (ds : List Label) :
    (ds.foldl LabelTable.bind t).length + (warningsFrom file t ds).length =
      t.length + ds.length := by
  induction ds generalizing t with
  | nil => rfl
  | cons d ds ih =>
    have rest := ih (t.bind d)
    cases found : t.lookup d.name with
    | some first =>
      rw [LabelTable.bind_of_bound found] at rest
      simp only [List.foldl_cons, warningsFrom, found, LabelTable.bind_of_bound found,
        List.length_cons]
      omega
    | none =>
      rw [LabelTable.bind_of_free found, List.length_append, List.length_singleton] at rest
      simp only [List.foldl_cons, warningsFrom, found, LabelTable.bind_of_free found,
        List.length_cons]
      omega

structure FirstDeclarations (ls : List Line) (t : LabelTable) : Prop where
  names_nodup : (t.map Label.name).Nodup
  lines_increasing : t.Pairwise fun d e => d.line < e.line
  offsets_nondecreasing : t.Pairwise fun d e => d.offset ≤ e.offset
  eq_first : ∀ l ∈ t, l = first ls l.name ∧ 4 ∣ l.offset
  declared_iff : ∀ name, (∃ l ∈ t, l.name = name) ↔ .label name ∈ ls
  lookup_iff : ∀ name l, t.lookup name = some l ↔ l ∈ t ∧ l.name = name
  lookup_eq : ∀ name, t.lookup name = if .label name ∈ ls then some (first ls name) else none
  length_eq : t.length = (Line.labelNames ls).dedup.length

theorem firstDeclarations_table (ls : List Line) :
    FirstDeclarations ls (table (declarations ls)) := by
  have distinct : ((table (declarations ls)).map Label.name).Nodup :=
    LabelTable.nodup_foldl_bind (t := []) .nil _
  have ordered : (table (declarations ls)).Pairwise fun d e =>
      d.line < e.line ∧ d.offset ≤ e.offset :=
    (pairwise_declarationsFrom 0 0 ls).sublist (LabelTable.foldl_bind_sublist [] _)
  have found := @LabelTable.lookup_eq_some_iff _ distinct
  have declared (name : Bytes) :
      (∃ l ∈ table (declarations ls), l.name = name) ↔ .label name ∈ ls := by
    simp only [← found, lookup_table]
    by_cases member : Line.label name ∈ ls <;> simp [member]
  refine
    { names_nodup := distinct
      lines_increasing := ordered.imp And.left
      offsets_nondecreasing := ordered.imp And.right
      declared_iff := declared
      lookup_iff := fun _ _ => found
      lookup_eq := lookup_table ls
      eq_first := ?_
      length_eq := ?_ }
  · intro l entered
    have here := found.2 ⟨entered, rfl⟩
    simp only [lookup_table, (declared l.name).1 ⟨l, entered, rfl⟩, if_true,
      Option.some.injEq] at here
    exact ⟨here.symm, here ▸ Nat.dvd_mul_right 4 _⟩
  · -- The names of the table and the names declared are the same, and the former are distinct.
    have same : ((table (declarations ls)).map Label.name).Perm (Line.labelNames ls).dedup := by
      rw [List.perm_ext_iff_of_nodup distinct (List.nodup_dedup _)]
      intro name
      rw [List.mem_map, declared, List.mem_dedup, Line.mem_labelNames]
    simpa using same.length_eq

end Label

open Assembly Label in
/-- Where every label has a name, the labels are placed as the first declarations of their names,
and there is a warning for each of the others. -/
theorem labels_are_first_declarations (file : Bytes) (mode : Mode) {ls : List Line}
    (named : Line.label [] ∉ ls) :
    FirstDeclarations ls (table (declarations ls)) ∧
    (LabelIndex.ofDeclarations (declarations ls)).all = table (declarations ls) ∧
    (LabelIndex.ofDeclarations (declarations ls)).count = (table (declarations ls)).length ∧
    (∀ name, (LabelIndex.ofDeclarations (declarations ls)).lookup name =
      (table (declarations ls)).lookup name) ∧
    warnings file (declarations ls) =
      (List.range ls.length).filterMap (Warning.atLine? file [] ls) ∧
    (warnings file (declarations ls)).map Warning.told =
      (List.range ls.length).filterMap (Warning.toldAtLine? file [] ls) ∧
    (table (declarations ls)).length + (warnings file (declarations ls)).length =
      (Line.labelNames ls).length ∧
    (∃ later, (ofLines file mode ls).log =
      (warnings file (declarations ls)).map .duplicateLabel ++
        .labelsResolved file (table (declarations ls)).length (sizeOfLines ls) :: later) ∧
    ∀ p, (ofLines file mode ls).result = .ok p →
      p.labels = table (declarations ls) ∧ p.warnings = warnings file (declarations ls) := by
  have refines := LabelIndex.refines_ofDeclarations (declarations ls)
  have warned : warnings file (declarations ls) = _ := warningsFrom_table file [] ls
  refine ⟨firstDeclarations_table ls, refines.all_eq, refines.count_eq, refines.lookup_eq, warned,
    ?_, ?_, ?_, ?_⟩
  · rw [warned, Warning.map_told_filterMap]
  · have each := length_foldl_bind_add_warnings file [] (declarations ls)
    have names : (declarations ls).length = (Line.labelNames ls).length := by
      rw [declarations, ← map_name_declarationsFrom 0 0 ls, List.length_map]
    simpa [table, warnings, ← names] using each
  · refine ⟨zeroWordsFrom file mode 0 ls, ?_⟩
    simp only [ofLines, (wellLabelled_eq_self_iff ls).2 named, Nat.lt_irrefl, if_false]
  · intro p assembled
    obtain ⟨-, yields, -, rfl⟩ := (ofLines_eq_ok_iff file mode ls p).1 assembled
    exact ⟨rfl, rfl⟩

theorem labels_are_first_declarations_of_repeated :
    ∃ ls, ls = Line.ofSource (utf8 "a:\nnop\nb:\nstpush \"abcd\"\na:\nc:\na:\n") ∧
      Line.label [] ∉ ls ∧
      Label.FirstDeclarations ls [⟨utf8 "a", 1, 0⟩, ⟨utf8 "b", 3, 4⟩, ⟨utf8 "c", 6, 12⟩] ∧
      [⟨[], 5, utf8 "a", 1⟩, ⟨[], 7, utf8 "a", 1⟩] =
        (List.range ls.length).filterMap (Warning.atLine? [] [] ls) ∧
      (Label.warnings [] (Label.declarations ls)).map Warning.told =
        [([], 5, utf8 "duplicate label \"a\", first declared at line 1"),
          ([], 7, utf8 "duplicate label \"a\", first declared at line 1")] ∧
      3 + 2 = (Line.labelNames ls).length := by
  have named : Line.label [] ∉
      Line.ofSource (utf8 "a:\nnop\nb:\nstpush \"abcd\"\na:\nc:\na:\n") := by
    decide +kernel
  obtain ⟨firsts, -, -, -, warned, told, counted, -⟩ := labels_are_first_declarations [] {} named
  refine ⟨_, rfl, named, firsts, warned, ?_, counted⟩
  rw [told]
  decide +kernel

end StackAsm
