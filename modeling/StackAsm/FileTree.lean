import StackAsm.Input

set_option autoImplicit false

namespace StackAsm

inductive FileNode where
  | file (content : Bytes)
  | directory
  | fullDevice
  deriving DecidableEq, Repr

abbrev Path := List Bytes

structure FileTree where
  entries : List (Path × FileNode) := []
  deriving DecidableEq, Repr

namespace FileTree

def node? (t : FileTree) (p : Path) : Option FileNode :=
  if p = [] then some .directory else t.entries.lookup p

def erase (t : FileTree) (p : Path) : FileTree :=
  ⟨t.entries.filter fun e => e.1 != p⟩

def put (t : FileTree) (p : Path) (n : FileNode) : FileTree :=
  ⟨(p, n) :: (t.erase p).entries⟩

theorem lookup_filter_self (entries : List (Path × FileNode)) (p : Path) :
    (entries.filter fun e => e.1 != p).lookup p = none := by
  induction entries with
  | nil => rfl
  | cons e entries ih =>
    obtain ⟨path, node⟩ := e
    by_cases same : path = p
    · simpa [same] using ih
    · have test : (p == path) = false := beq_eq_false_iff_ne.2 (Ne.symm same)
      have kept : (path != p) = true := bne_iff_ne.2 same
      simpa only [List.filter_cons, kept, if_true, List.lookup_cons, test] using ih

theorem lookup_filter_of_ne (entries : List (Path × FileNode)) {p q : Path} (h : q ≠ p) :
    (entries.filter fun e => e.1 != p).lookup q = entries.lookup q := by
  induction entries with
  | nil => rfl
  | cons e entries ih =>
    obtain ⟨path, node⟩ := e
    by_cases same : path = p
    · have test : (q == path) = false := beq_eq_false_iff_ne.2 (same ▸ h)
      have dropped : (path != p) = false := by simp [same]
      simpa only [List.filter_cons, dropped, Bool.false_eq_true, if_false, List.lookup_cons, test]
        using ih
    · have kept : (path != p) = true := bne_iff_ne.2 same
      simp only [List.filter_cons, kept, if_true, List.lookup_cons, ih]

theorem node?_erase_self (t : FileTree) {p : Path} (h : p ≠ []) : (t.erase p).node? p = none := by
  simp [node?, erase, h, lookup_filter_self]

theorem node?_erase_of_ne (t : FileTree) {p q : Path} (h : q ≠ p) :
    (t.erase p).node? q = t.node? q := by
  simp [node?, erase, lookup_filter_of_ne _ h]

theorem node?_put_self (t : FileTree) {p : Path} (h : p ≠ []) (n : FileNode) :
    (t.put p n).node? p = some n := by
  simp [node?, put, h]

theorem node?_put_of_ne (t : FileTree) {p q : Path} (h : q ≠ p) (n : FileNode) :
    (t.put p n).node? q = t.node? q := by
  have other : (q == p) = false := by simpa using h
  simp [node?, put, erase, List.lookup_cons, other, lookup_filter_of_ne _ h]

def step (dir : Path) (name : Bytes) : Path :=
  if name = utf8 "." then dir
  else if name = utf8 ".." then dir.dropLast
  else dir ++ [name]

def longestName : Nat := 255

def longestFileName : Nat := 4095

-- Follows names from a directory, all of which have to lead to directories.
def walk (t : FileTree) (dir : Path) : List Bytes → Except FileFault Path
  | [] => .ok dir
  | name :: names =>
    if longestName < name.length then .error .nameTooLong
    else
      match t.node? (step dir name) with
      | some .directory => t.walk (step dir name) names
      | some _ => .error .notDirectory
      | none => .error .absent

-- Where a file name leads: a directory, the last name in it, and whether slashes follow.
structure Spot where
  directory : Path
  last : Bytes
  slashed : Bool
  deriving DecidableEq, Repr

-- A last name that leads to a directory and cannot be another entry.
def Spot.isDots (s : Spot) : Bool :=
  s.last == utf8 "." || s.last == utf8 ".."

def Spot.path (s : Spot) : Path :=
  step s.directory s.last

-- Finds where a file name leads; slashes divide its names, and more of them mean no more.
def locate (t : FileTree) (name : Bytes) : Except FileFault Spot :=
  if name.contains 0 then .error .invalidName
  else if name = [] then .error .absent
  else if longestFileName < name.length then .error .nameTooLong
  else
    let parts := name.splitOn Ascii.slash
    let names := parts.filter (· ≠ [])
    (t.walk [] names.dropLast).map fun dir =>
      ⟨dir, names.getLastD (utf8 "."), parts.getLast? == some []⟩

def place (t : FileTree) (name : Bytes) (n : FileNode) : FileTree :=
  let names := (name.splitOn Ascii.slash).filter (· ≠ [])
  let (tree, dir) := names.dropLast.foldl
    (fun (tree, dir) name =>
      let here := step dir name
      (if (FileTree.node? tree here).isNone then tree.put here .directory else tree, here))
    (t, [])
  tree.put (step dir (names.getLastD (utf8 "."))) n

/-- What is read from a full device. It delivers zero bytes without end, and one page stands for
them: enough for the header of an image and for the first character of a document. A source that is
read from it would go on until a line is too long; here it ends with the page. -/
def zeroPage : Bytes :=
  List.replicate 4096 0

-- The entry that a file name stands for. Slashes after it ask for a directory.
def entry (t : FileTree) (name : Bytes) : Except FileFault FileNode :=
  match t.locate name with
  | .error fault => .error fault
  | .ok spot =>
    if longestName < spot.last.length then .error .nameTooLong
    else
      match t.node? spot.path with
      | none => .error .absent
      | some n => if spot.slashed && n != .directory then .error .notDirectory else .ok n

/-- Opens a file for reading. A directory can be opened but not read. -/
def openInput (t : FileTree) (name : Bytes) : Except Cause Input :=
  match t.entry name with
  | .error fault => .error (.fileFault .opening name fault)
  | .ok (.file content) => .ok (.ofBytes content)
  | .ok .directory => .ok ⟨[], some (.fileFault .reading name .isDirectory)⟩
  | .ok .fullDevice => .ok (.ofBytes zeroPage)

def writablePath (t : FileTree) (name : Bytes) : Except Cause Path :=
  match t.locate name with
  | .error fault => .error (.fileFault .opening name fault)
  | .ok spot =>
    if spot.isDots || spot.slashed then .error (.fileFault .opening name .isDirectory)
    else if longestName < spot.last.length then .error (.fileFault .opening name .nameTooLong)
    else if t.node? spot.path = some .directory then
      .error (.fileFault .opening name .isDirectory)
    else .ok spot.path

def isEmptyDirectory (t : FileTree) (p : Path) : Bool :=
  t.entries.all fun e => !(p.isPrefixOf e.1 && e.1 != p)

/-- Removes a file, or a directory that holds nothing. Anything else stays. -/
def remove (t : FileTree) (name : Bytes) : FileTree :=
  match t.locate name with
  | .error _ => t
  | .ok spot =>
    if spot.isDots then t
    else
      match t.node? spot.path with
      | some .directory => if t.isEmptyDirectory spot.path then t.erase spot.path else t
      | _ => if spot.slashed then t else t.erase spot.path

end FileTree

end StackAsm
