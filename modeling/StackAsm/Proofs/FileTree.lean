import StackAsm.FileTree

set_option autoImplicit false

namespace StackAsm.FileTree

theorem walk_cons_eq_ok_iff (t : FileTree) (dir reached : Path) (name : Bytes)
    (names : List Bytes) : t.walk dir (name :: names) = .ok reached ↔
      name.length ≤ longestName ∧ t.node? (step dir name) = some .directory ∧
        t.walk (step dir name) names = .ok reached := by
  rw [walk]
  by_cases long : longestName < name.length
  next => simp [long, Nat.not_le.2 long]
  next =>
    rw [if_neg long]
    rcases here : t.node? (step dir name) with _ | _ | _ | _ <;> simp [Nat.le_of_not_lt long]

theorem walk_eq_foldl {t : FileTree} {dir reached : Path} {names : List Bytes}
    (walked : t.walk dir names = .ok reached) : reached = names.foldl step dir := by
  induction names generalizing dir with
  | nil => exact (Except.ok.inj walked).symm
  | cons name names ih => exact ih ((walk_cons_eq_ok_iff ..).1 walked).2.2

theorem walk_mono {t u : FileTree}
    (kept : ∀ q, t.node? q = some .directory → u.node? q = some .directory) {dir reached : Path}
    {names : List Bytes} (walked : t.walk dir names = .ok reached) :
    u.walk dir names = .ok reached := by
  induction names generalizing dir with
  | nil => exact walked
  | cons name names ih =>
    obtain ⟨short, here, walked⟩ := (walk_cons_eq_ok_iff ..).1 walked
    exact (walk_cons_eq_ok_iff ..).2 ⟨short, kept _ here, ih walked⟩

def Reached (t : FileTree) (dir : Path) : Prop :=
  ∀ q, q <+: dir → t.node? q = some .directory

theorem reached_root (t : FileTree) : t.Reached [] := by
  intro q start
  rw [List.prefix_nil.1 start]
  rfl

theorem reached_step {t : FileTree} {dir : Path} (reached : t.Reached dir) {name : Bytes}
    (here : t.node? (step dir name) = some .directory) : t.Reached (step dir name) := by
  rw [step] at here ⊢
  split at here
  next => rwa [if_pos ‹_›]
  next =>
    rw [if_neg ‹_›]
    split at here
    next =>
      rw [if_pos ‹_›]
      exact fun q start => reached q (start.trans (List.dropLast_prefix dir))
    next =>
      rw [if_neg ‹_›]
      intro q start
      rcases List.prefix_concat_iff.1 start with rfl | above
      · exact here
      · exact reached q above

theorem reached_walk {t : FileTree} {dir reached : Path} {names : List Bytes}
    (start : t.Reached dir) (walked : t.walk dir names = .ok reached) : t.Reached reached := by
  induction names generalizing dir with
  | nil => exact Except.ok.inj walked ▸ start
  | cons name names ih =>
    obtain ⟨-, here, walked⟩ := (walk_cons_eq_ok_iff ..).1 walked
    exact ih (reached_step start here) walked

def namesIn (name : Bytes) : List Bytes :=
  (name.splitOn Ascii.slash).filter (· ≠ [])

def IsFileName (name : Bytes) : Prop :=
  0 ∉ name ∧ name ≠ [] ∧ name.length ≤ longestFileName

def Spot.ofName (name : Bytes) : Spot :=
  ⟨(namesIn name).dropLast.foldl step [], (namesIn name).getLastD (utf8 "."),
    (name.splitOn Ascii.slash).getLast? == some []⟩

theorem locate_eq_ok_iff (t : FileTree) (name : Bytes) (spot : Spot) :
    t.locate name = .ok spot ↔ IsFileName name ∧ spot = .ofName name ∧
      t.walk [] (namesIn name).dropLast = .ok spot.directory := by
  constructor
  · intro found
    rw [locate] at found
    split at found
    next => cases found
    next zero =>
      split at found
      next => cases found
      next nonempty =>
        split at found
        next => cases found
        next long =>
          have named : IsFileName name := ⟨by simpa using zero, nonempty, Nat.le_of_not_lt long⟩
          cases walked : t.walk [] (namesIn name).dropLast with
          | error fault =>
            simp only [namesIn] at walked
            simp only [walked, Except.map] at found
            cases found
          | ok dir =>
            have place := walk_eq_foldl walked
            simp only [namesIn] at walked
            simp only [walked, Except.map] at found
            cases found
            exact ⟨named, by rw [Spot.ofName, ← place, namesIn], rfl⟩
  · rintro ⟨⟨zero, nonempty, short⟩, rfl, walked⟩
    rw [locate, if_neg (by simp [zero]), if_neg nonempty, if_neg (Nat.not_lt.2 short)]
    simp only [namesIn] at walked
    simp only [walked, Except.map]
    rfl

theorem locate_unique {t u : FileTree} {name : Bytes} {spot other : Spot}
    (found : t.locate name = .ok spot) (again : u.locate name = .ok other) : other = spot := by
  rw [((locate_eq_ok_iff ..).1 found).2.1, ((locate_eq_ok_iff ..).1 again).2.1]

theorem locate_mono {t u : FileTree}
    (kept : ∀ q, t.node? q = some .directory → u.node? q = some .directory) {name : Bytes}
    {spot : Spot} (found : t.locate name = .ok spot) : u.locate name = .ok spot := by
  obtain ⟨named, place, walked⟩ := (locate_eq_ok_iff ..).1 found
  exact (locate_eq_ok_iff ..).2 ⟨named, place, walk_mono kept walked⟩

theorem reached_of_locate {t : FileTree} {name : Bytes} {spot : Spot}
    (found : t.locate name = .ok spot) : t.Reached spot.directory :=
  reached_walk t.reached_root ((locate_eq_ok_iff ..).1 found).2.2

theorem Spot.path_of_plain {spot : Spot} (plain : spot.isDots = false) :
    spot.path = spot.directory ++ [spot.last] := by
  simp only [isDots, Bool.or_eq_false_iff, beq_eq_false_iff_ne] at plain
  rw [path, step, if_neg plain.1, if_neg plain.2]

theorem Spot.path_ne_nil {spot : Spot} (plain : spot.isDots = false) : spot.path ≠ [] := by
  rw [path_of_plain plain]
  simp

-- Dots lead to the directory or to the one above it, and both are there.
theorem node?_of_isDots {t : FileTree} {name : Bytes} {spot : Spot}
    (found : t.locate name = .ok spot) (dots : spot.isDots = true) :
    t.node? spot.path = some .directory := by
  have reached := reached_of_locate found
  rw [Spot.path, step]
  split
  next => exact reached _ (List.prefix_refl _)
  next =>
    split
    next => exact reached _ (List.dropLast_prefix _)
    next here above => simp [Spot.isDots, here, above] at dots

theorem entry_eq_ok_iff {t : FileTree} {name : Bytes} {spot : Spot}
    (found : t.locate name = .ok spot) (n : FileNode) :
    t.entry name = .ok n ↔ spot.last.length ≤ longestName ∧ t.node? spot.path = some n ∧
      (spot.slashed = true → n = .directory) := by
  simp only [entry, found]
  by_cases long : longestName < spot.last.length
  next => simp [long, Nat.not_le.2 long]
  next =>
    simp only [long, ↓reduceIte, Nat.le_of_not_lt long, true_and]
    cases t.node? spot.path with
    | none => simp
    | some here =>
      dsimp only
      rw [Option.some.injEq]
      split
      next mismatch =>
        rw [Bool.and_eq_true, bne_iff_ne] at mismatch
        refine ⟨nofun, ?_⟩
        rintro ⟨rfl, directory⟩
        exact absurd (directory mismatch.1) mismatch.2
      next fits =>
        rw [Except.ok.injEq]
        refine ⟨?_, And.left⟩
        rintro rfl
        exact ⟨rfl, by simpa using fits⟩

def Vacant (t : FileTree) (name : Bytes) : Prop :=
  ∃ fault, t.entry name = .error fault

theorem vacant_of_not_located {t : FileTree} {name : Bytes} {fault : FileFault}
    (lost : t.locate name = .error fault) : t.Vacant name :=
  ⟨fault, by rw [entry, lost]⟩

theorem vacant_of_forall_ne {t : FileTree} {name : Bytes} (none : ∀ n, t.entry name ≠ .ok n) :
    t.Vacant name := by
  cases here : t.entry name with
  | error fault => exact ⟨fault, here⟩
  | ok n => exact absurd here (none n)

theorem vacant_erase {t : FileTree} {name : Bytes} {spot : Spot} (found : t.locate name = .ok spot)
    (plain : spot.isDots = false) : (t.erase spot.path).Vacant name := by
  cases again : (t.erase spot.path).locate name with
  | error fault => exact vacant_of_not_located again
  | ok other =>
    refine vacant_of_forall_ne fun n here => ?_
    obtain ⟨-, here, -⟩ := (entry_eq_ok_iff again n).1 here
    rw [locate_unique found again, node?_erase_self t (Spot.path_ne_nil plain)] at here
    cases here

/-- A directory that a removal refuses: something lies in it, or its name ends in dots. -/
def Refused (t : FileTree) (name : Bytes) : Prop :=
  ∃ spot, t.locate name = .ok spot ∧ t.node? spot.path = some .directory ∧
    (spot.isDots = true ∨ ∃ q, spot.path <+: q ∧ q ≠ spot.path ∧ (t.node? q).isSome)

theorem exists_below_of_not_isEmptyDirectory {t : FileTree} {p : Path}
    (filled : t.isEmptyDirectory p = false) :
    ∃ q, p <+: q ∧ q ≠ p ∧ (t.node? q).isSome := by
  rw [isEmptyDirectory, List.all_eq_false] at filled
  obtain ⟨⟨q, node⟩, member, inside⟩ := filled
  simp only [Bool.not_eq_true, Bool.not_eq_false', Bool.and_eq_true, bne_iff_ne,
    List.isPrefixOf_iff_prefix] at inside
  refine ⟨q, inside.1, inside.2, ?_⟩
  rw [node?]
  split
  next => rfl
  next => exact List.lookup_isSome_iff.2 ⟨(q, node), member, beq_self_eq_true q⟩

-- The trees that removing a name, once or more often, can come to.
inductive Removed (t : FileTree) (name : Bytes) : FileTree → Prop where
  | nothing (vacant : t.Vacant name) : Removed t name t
  | refused (stays : t.Refused name) : Removed t name t
  | erased {spot : Spot} (found : t.locate name = .ok spot) (plain : spot.isDots = false) :
    Removed t name (t.erase spot.path)

theorem removed_remove (t : FileTree) (name : Bytes) : Removed t name (t.remove name) := by
  rw [remove]
  cases found : t.locate name with
  | error fault => exact .nothing (vacant_of_not_located found)
  | ok spot =>
    cases dots : spot.isDots with
    | true =>
      simp only [dots, ↓reduceIte]
      exact .refused ⟨spot, found, node?_of_isDots found dots, .inl dots⟩
    | false =>
      simp only [dots, Bool.false_eq_true, ↓reduceIte]
      split
      next here =>
        split
        next => exact .erased found dots
        next filled =>
          rw [Bool.not_eq_true] at filled
          exact .refused ⟨spot, found, here, .inr (exists_below_of_not_isEmptyDirectory filled)⟩
      next other =>
        split
        next slashed =>
          -- Slashes after a name that is no directory: the name stands for nothing.
          refine .nothing (vacant_of_forall_ne fun n here => ?_)
          obtain ⟨-, here, directory⟩ := (entry_eq_ok_iff found n).1 here
          exact other (by rw [here, directory slashed])
        next => exact .erased found dots

section Removal

variable {t u : FileTree} {name : Bytes}

theorem Removed.node?_of_ne (removed : Removed t name u) {q : Path}
    (elsewhere : ∀ spot, t.locate name = .ok spot → q ≠ spot.path) : u.node? q = t.node? q := by
  cases removed with
  | nothing | refused => rfl
  | erased found => exact node?_erase_of_ne t (elsewhere _ found)

theorem Removed.vacant_or_refused (removed : Removed t name u) :
    u.Vacant name ∨ t.Refused name ∧ u = t := by
  cases removed with
  | nothing vacant => exact .inl vacant
  | refused stays => exact .inr ⟨stays, rfl⟩
  | erased found plain => exact .inl (vacant_erase found plain)

theorem erase_erase (t : FileTree) (p : Path) : (t.erase p).erase p = t.erase p := by
  simp [erase, List.filter_filter]

theorem erase_put (t : FileTree) (p : Path) (n : FileNode) : (t.put p n).erase p = t.erase p := by
  simp [put, erase, List.filter_filter]

theorem Removed.remove (removed : Removed t name u) : Removed t name (u.remove name) := by
  cases removed with
  | nothing | refused => exact removed_remove t name
  | @erased spot found plain =>
    -- The name may lead nowhere now. If it leads anywhere, then to the place that was erased.
    have again := removed_remove (t.erase spot.path) name
    generalize (t.erase spot.path).remove name = v at again
    cases again with
    | nothing | refused => exact .erased found plain
    | erased refound =>
      rw [locate_unique found refound, erase_erase]
      exact .erased found plain

end Removal

theorem writablePath_eq_ok_iff (t : FileTree) (name : Bytes) (p : Path) :
    t.writablePath name = .ok p ↔ ∃ spot, t.locate name = .ok spot ∧ p = spot.path ∧
      spot.isDots = false ∧ spot.slashed = false ∧ spot.last.length ≤ longestName ∧
      t.node? spot.path ≠ some .directory := by
  rw [writablePath]
  cases found : t.locate name with
  | error fault => simp
  | ok spot =>
    simp only [Except.ok.injEq, exists_eq_left']
    split
    next directory =>
      rcases Bool.or_eq_true_iff.1 directory with dots | slashed
      · simp [dots]
      · simp [slashed]
    next single =>
      rw [Bool.not_eq_true, Bool.or_eq_false_iff] at single
      split
      next long => simp [Nat.not_le.2 long]
      next short =>
        split
        next here => simp [here]
        next other => simp [single, Nat.le_of_not_lt short, other, eq_comm]

section Writing

variable {t : FileTree} {name : Bytes} {p : Path}

theorem locate_put (writable : t.writablePath name = .ok p) (n : FileNode) {other : Bytes}
    {spot : Spot} (found : t.locate other = .ok spot) : (t.put p n).locate other = .ok spot := by
  obtain ⟨_, -, rfl, -, -, -, noDirectory⟩ := (writablePath_eq_ok_iff ..).1 writable
  -- No directory is overwritten, so that every way through the tree is still open.
  refine locate_mono (fun q directory => ?_) found
  rw [node?_put_of_ne t, directory]
  rintro rfl
  exact noDirectory directory

theorem entry_put (writable : t.writablePath name = .ok p) (n : FileNode) :
    (t.put p n).entry name = .ok n := by
  obtain ⟨spot, found, rfl, plain, single, short, -⟩ := (writablePath_eq_ok_iff ..).1 writable
  refine (entry_eq_ok_iff (locate_put writable n found) n).2
    ⟨short, node?_put_self t (Spot.path_ne_nil plain) n, ?_⟩
  rw [single]
  exact Bool.noConfusion

theorem node?_put_of_elsewhere (writable : t.writablePath name = .ok p) (n : FileNode) {q : Path}
    (elsewhere : ∀ spot, t.locate name = .ok spot → q ≠ spot.path) :
    (t.put p n).node? q = t.node? q := by
  obtain ⟨spot, found, rfl, -⟩ := (writablePath_eq_ok_iff ..).1 writable
  exact node?_put_of_ne t (elsewhere spot found) n

theorem remove_of_writable (writable : t.writablePath name = .ok p) :
    t.remove name = t.erase p := by
  obtain ⟨spot, found, rfl, plain, single, -, other⟩ := (writablePath_eq_ok_iff ..).1 writable
  -- That no directory is there decides the match, by assumption.
  simp only [remove, found, plain, single, Bool.false_eq_true, ↓reduceIte]

theorem vacant_erase_of_writable (writable : t.writablePath name = .ok p) :
    (t.erase p).node? p = none ∧ (t.erase p).Vacant name := by
  obtain ⟨spot, found, rfl, plain, -⟩ := (writablePath_eq_ok_iff ..).1 writable
  exact ⟨node?_erase_self t (Spot.path_ne_nil plain), vacant_erase found plain⟩

theorem node?_erase_of_elsewhere (writable : t.writablePath name = .ok p) {q : Path}
    (elsewhere : ∀ spot, t.locate name = .ok spot → q ≠ spot.path) :
    (t.erase p).node? q = t.node? q := by
  obtain ⟨spot, found, rfl, -⟩ := (writablePath_eq_ok_iff ..).1 writable
  exact node?_erase_of_ne t (elsewhere spot found)

theorem removed_remove_put (writable : t.writablePath name = .ok p) (content : Bytes) :
    Removed t name ((t.put p (.file content)).remove name) := by
  obtain ⟨spot, found, rfl, plain, -⟩ := (writablePath_eq_ok_iff ..).1 writable
  have written := entry_put writable (.file content)
  have removed := removed_remove (t.put spot.path (.file content)) name
  generalize (t.put spot.path (.file content)).remove name = v at removed
  cases removed with
  | nothing vacant =>
    obtain ⟨fault, vacant⟩ := vacant
    rw [written] at vacant
    cases vacant
  | refused stays =>
    obtain ⟨again, refound, directory, -⟩ := stays
    rw [locate_unique found refound, node?_put_self t (Spot.path_ne_nil plain)] at directory
    cases directory
  | erased refound =>
    rw [locate_unique found refound, erase_put]
    exact .erased found plain

end Writing

end StackAsm.FileTree
