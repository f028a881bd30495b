import Mathlib.Data.List.Nodup
import StackAsm.Proofs.Assembly.LabelTable

set_option autoImplicit false

namespace StackAsm

namespace LabelTable

theorem nodup_bind {t : LabelTable} (distinct : (t.map Label.name).Nodup) (l : Label) :
    ((t.bind l).map Label.name).Nodup := by
  cases found : t.lookup l.name with
  | some first => simpa only [bind_of_bound found] using distinct
  | none =>
    have free : ∀ d ∈ t, d.name ≠ l.name := by simpa [lookup] using found
    simpa [bind_of_free found, List.nodup_append] using ⟨distinct, free⟩

theorem nodup_foldl_bind {t : LabelTable} (distinct : (t.map Label.name).Nodup)
    (ds : List Label) : ((ds.foldl bind t).map Label.name).Nodup := by
  induction ds generalizing t with
  | nil => exact distinct
  | cons d ds ih => exact ih (nodup_bind distinct d)

theorem lookup_eq_some_iff {t : LabelTable} (distinct : (t.map Label.name).Nodup) {name : Bytes}
    {l : Label} : t.lookup name = some l ↔ l ∈ t ∧ l.name = name := by
  have sound {d : Label} (found : t.lookup name = some d) : d ∈ t ∧ d.name = name :=
    ⟨List.mem_of_find?_eq_some found, by simpa using List.find?_some found⟩
  refine ⟨sound, ?_⟩
  rintro ⟨member, named⟩
  -- Some entry is found, and it is this one, since no two entries share their name.
  have some : (t.lookup name).isSome := by
    simpa [lookup] using ⟨l, member, named⟩
  obtain ⟨d, found⟩ := Option.isSome_iff_exists.1 some
  obtain ⟨entered, same⟩ := sound found
  rw [found, List.inj_on_of_nodup_map distinct entered member (same.trans named.symm)]

end LabelTable

-- A table as a map, with the names in the order in which they were entered.
structure LabelIndex where
  labels : Std.HashMap Bytes Label := {}
  order : List Bytes := []

namespace LabelIndex

def bind (x : LabelIndex) (l : Label) : Bool × LabelIndex :=
  if x.labels.contains l.name then (false, x)
  else (true, ⟨x.labels.insert l.name l, x.order ++ [l.name]⟩)

def lookup (x : LabelIndex) (name : Bytes) : Option Label :=
  x.labels[name]?

def count (x : LabelIndex) : Nat :=
  x.order.length

def all (x : LabelIndex) : List Label :=
  x.order.map fun name => x.labels.getD name ⟨[], 0, 0⟩

def ofDeclarations (ds : List Label) : LabelIndex :=
  ds.foldl (fun x d => (x.bind d).2) {}

structure Refines (x : LabelIndex) (t : LabelTable) : Prop where
  order_eq : x.order = t.map Label.name
  order_nodup : x.order.Nodup
  lookup_eq : ∀ name, x.lookup name = t.lookup name

variable {x : LabelIndex} {t : LabelTable}

theorem refines_empty : Refines {} [] where
  order_eq := rfl
  order_nodup := .nil
  lookup_eq _ := Std.HashMap.getElem?_empty

theorem Refines.contains_eq (refines : x.Refines t) (name : Bytes) :
    x.labels.contains name = (t.lookup name).isSome := by
  rw [← refines.lookup_eq, lookup, Std.HashMap.isSome_getElem?_eq_contains]

theorem bind_of_bound {l : Label} (bound : x.labels.contains l.name = true) :
    x.bind l = (false, x) := by
  rw [LabelIndex.bind, if_pos bound]

theorem bind_of_free {l : Label} (free : x.labels.contains l.name = false) :
    x.bind l = (true, ⟨x.labels.insert l.name l, x.order ++ [l.name]⟩) := by
  rw [LabelIndex.bind, free, if_neg Bool.false_ne_true]

theorem Refines.bind (refines : x.Refines t) (l : Label) :
    (x.bind l).1 = (t.lookup l.name).isNone ∧ (x.bind l).2.Refines (t.bind l) := by
  have distinct := refines.order_eq ▸ refines.order_nodup
  have contained := refines.contains_eq l.name
  cases found : t.lookup l.name with
  | some first =>
    rw [found, Option.isSome_some] at contained
    rw [bind_of_bound contained, LabelTable.bind_of_bound found]
    exact ⟨rfl, refines⟩
  | none =>
    rw [found, Option.isSome_none] at contained
    have order : x.order ++ [l.name] = (t.bind l).map Label.name := by
      rw [LabelTable.bind_of_free found, List.map_append, refines.order_eq]
      rfl
    rw [bind_of_free contained]
    refine ⟨rfl, order, order ▸ LabelTable.nodup_bind distinct l, ?_⟩
    intro name
    rw [lookup, Std.HashMap.getElem?_insert, LabelTable.lookup_bind, LabelTable.lookup_singleton]
    by_cases same : l.name = name
    next => simp [← same, found]
    next => simpa [same, lookup] using refines.lookup_eq name

theorem Refines.foldl_bind (refines : x.Refines t) (ds : List Label) :
    (ds.foldl (fun x d => (x.bind d).2) x).Refines (ds.foldl LabelTable.bind t) := by
  induction ds generalizing x t with
  | nil => exact refines
  | cons d ds ih => exact ih (refines.bind d).2

theorem refines_ofDeclarations (ds : List Label) : (ofDeclarations ds).Refines (Label.table ds) :=
  refines_empty.foldl_bind ds

theorem Refines.count_eq (refines : x.Refines t) : x.count = t.length := by
  rw [count, refines.order_eq, List.length_map]

theorem Refines.all_eq (refines : x.Refines t) : x.all = t := by
  have distinct := refines.order_eq ▸ refines.order_nodup
  have entry : ∀ l ∈ t, x.labels.getD l.name ⟨[], 0, 0⟩ = l := by
    intro l member
    have found := (LabelTable.lookup_eq_some_iff distinct).2 ⟨member, rfl⟩
    rw [← refines.lookup_eq, lookup] at found
    rw [Std.HashMap.getD_eq_getD_getElem?, found, Option.getD_some]
  rw [all, refines.order_eq, List.map_map]
  exact (List.map_congr_left entry).trans (List.map_id t)

end LabelIndex

end StackAsm
