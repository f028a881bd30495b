import StackAsm.FileTree
import StackAsm.Yaml.Document

set_option autoImplicit false

namespace StackAsm

structure Settings where
  output : Bytes := utf8 "output.bin"
  strict : Bool := false
  extended : Bool := false
  labels : Bool := false
  verbose : Bool := false
  deriving DecidableEq, Repr

namespace Settings

open Yaml

inductive Assignment where
  | output (name : Bytes)
  | strict (on : Bool)
  | extended (on : Bool)
  | labels (on : Bool)
  | verbose (on : Bool)
  deriving DecidableEq, Repr

def assign (s : Settings) : Assignment → Settings
  | .output name => { s with output := name }
  | .strict on => { s with strict := on }
  | .extended on => { s with extended := on }
  | .labels on => { s with labels := on }
  | .verbose on => { s with verbose := on }

-- One assignment after the other: the last one to a setting counts.
def assignAll (s : Settings) (as : List Assignment) : Settings :=
  as.foldl assign s

def switch? (key : Bytes) : Option (Bool → Assignment) :=
  if key = utf8 "strict" then some .strict
  else if key = utf8 "extended" then some .extended
  else if key = utf8 "labels" then some .labels
  else if key = utf8 "verbose" then some .verbose
  else none

def misfit (target : Target) : Node → Problem
  | .scalar line tag value => .wrongKind line tag value target
  | .sequence line tag _ => .wrongKind line tag [] target
  | .mapping line tag _ => .wrongKind line tag [] target
  | .reference line _ name _ => .wrongKind line .text name target

/-- Whether two keys of a mapping count as the same. References do if they have one name, and
collections of one kind always do. -/
def isSameKey (m n : Node) : Bool :=
  m.kind == n.kind && m.written == n.written

-- A problem for every pair of equal keys, in the order of the earlier key.
def repeatedKeys : List (Node × Node) → List Problem
  | [] => []
  | (key, _) :: es =>
    ((es.filter fun e => isSameKey key e.1).map fun e =>
      .repeatedKey e.1.line e.1.written key.line) ++ repeatedKeys es

-- What a value that is not wanted is reported for: a mapping first for its repeated keys.
def misfits (target : Target) (n : Node) : List Problem :=
  match n with
  | .mapping _ _ es => if repeatedKeys es = [] then [misfit target n] else repeatedKeys es
  | _ => [misfit target n]

-- What a document or a part of it does: it gives assignments and problems, up to a fault.
structure Effect where
  assignments : List Assignment := []
  problems : List Problem := []
  fault : Option Fault := none
  deriving DecidableEq, Repr

def Effect.append (e f : Effect) : Effect :=
  if e.fault.isSome then e
  else ⟨e.assignments ++ f.assignments, e.problems ++ f.problems, f.fault⟩

inductive Outcome (α : Type) where
  | value (a : α)
  | nothing
  | unfit (problems : List Problem)
  | halted (fault : Fault)

def Outcome.effect {α : Type} (assignment : α → Assignment) : Outcome α → Effect
  | .value a => { assignments := [assignment a] }
  | .nothing => {}
  | .unfit problems => { problems := problems }
  | .halted fault => { fault := some fault }

def readSwitch (d : Document) (n : Node) : Outcome Bool :=
  let n := d.follow n
  match n with
  | .scalar _ tag value =>
    match meaning tag value with
    | .error fault => .halted fault
    | .ok .nothing => .nothing
    | .ok (.truth on) => .value on
    | .ok (.text text) =>
      match wordSpelling? text with
      | some on => .value on
      | none => .unfit (misfits .switch n)
    | .ok .other => .unfit (misfits .switch n)
  | _ => .unfit (misfits .switch n)

def readText (d : Document) (n : Node) : Outcome Bytes :=
  let n := d.follow n
  match n with
  | .scalar _ tag value =>
    match meaning tag value with
    | .error fault => .halted fault
    | .ok .nothing => .nothing
    | .ok (.text text) => .value text
    | .ok _ => .value value
  | _ => .unfit (misfits .path n)

def settingEffect? (d : Document) (key : Bytes) (value : Node) : Option Effect :=
  if key = utf8 "output" then some ((readText d value).effect .output)
  else (switch? key).map fun assignment => (readSwitch d value).effect assignment

structure Progress where
  effect : Effect := {}
  given : List Bytes := []
  -- The keys that have been given when other mappings are merged: they do not count again.
  claimed : Option (List Bytes) := none

namespace Progress

def add (p : Progress) (e : Effect) : Progress :=
  { p with effect := p.effect.append e }

def isClaimed (p : Progress) (key : Bytes) : Bool :=
  (p.claimed.map (·.contains key)).getD false

def named (d : Document) (p : Progress) (line : Nat) (key : Bytes) (value : Node) : Progress :=
  if p.isClaimed key then p
  else
    let p := { p with claimed := p.claimed.map (key :: ·) }
    match settingEffect? d key value with
    | none => p.add { problems := [.unknownKey line key] }
    | some effect =>
      if p.given.contains key then p.add { problems := [.repeatedSetting line key] }
      else { p.add effect with given := key :: p.given }

-- Reads an entry. Those with the mark of a merge come later.
def entry (d : Document) (p : Progress) (e : Node × Node) : Progress :=
  if p.effect.fault.isSome || e.1.isMerge then p
  else
    match readText d e.1 with
    | .value key => p.named d e.1.line key e.2
    | .nothing => p
    | .unfit problems => p.add { problems := problems }
    | .halted fault => p.add { fault := some fault }

end Progress

def textKeys (d : Document) (es : List (Node × Node)) : List Bytes :=
  es.filterMap fun e =>
    match d.follow e.1 with
    | .scalar _ tag value =>
      match meaning tag value with
      | .ok (.text text) => some text
      | _ => none
    | _ => none

def mergeSources : Node → List Node
  | .sequence _ _ items => items
  | n => [n]

/-- Reads the entries of a mapping, and then those of the mappings that are merged into it, one
after the other: what has been given counts, and not what is merged. `active` has the references
that have been followed. -/
def readMapping (d : Document) : Nat → List Nat → Progress → List (Node × Node) → Progress
  | 0, _, p, _ => p
  | fuel + 1, active, p, es =>
    if repeatedKeys es ≠ [] then p.add { problems := repeatedKeys es }
    else
      let p := es.foldl (Progress.entry d) { p with given := [] }
      match (es.filter fun e => e.1.isMerge).getLast? with
      | none => p
      | some (_, source) =>
        (mergeSources source).foldl
          (fun p n =>
            if p.effect.fault.isSome then p
            else
              match n, d.follow n with
              | .mapping _ _ more, _ => readMapping d fuel active p more
              | .reference _ index name _, .mapping _ _ more =>
                if active.contains index then
                  p.add { fault := some (.overall (.anchorInItself name)) }
                else readMapping d fuel (index :: active) p more
              | _, _ => p.add { fault := some (.overall .unmergeable) })
          { p with claimed := some (p.claimed.getD (textKeys d es)) }

-- What a document does to the settings. Repeated keys keep all of it from being used.
def documentEffect (d : Document) : Effect :=
  match d.root with
  | .mapping _ _ es => (readMapping d ((d.size + 1) * (d.size + 1)) [] {} es).effect
  | .scalar _ tag value =>
    match meaning tag value with
    | .error fault => { fault := some fault }
    | .ok .nothing => {}
    | .ok _ => { problems := misfits .settings d.root }
  | _ => { problems := misfits .settings d.root }

def inputEffect (input : Input) : Except Cause Effect :=
  match input.failure with
  | some cause => .error (.unreadableDocument cause)
  | none =>
    match Document.read input.data with
    | .error fault => .error (.malformedDocument fault)
    | .ok none => .ok {}
    | .ok (some d) => .ok (documentEffect d)

/-- Reads a settings file over given settings. What could be used of a file with problems is. -/
def load (t : FileTree) (name : Bytes) (s : Settings) : Settings × Option Failure :=
  match t.openInput name with
  | .error cause => (s, some ⟨[.openFailed], cause⟩)
  | .ok input =>
    match inputEffect input with
    | .error cause => (s, some ⟨[.about name], cause⟩)
    | .ok effect =>
      let after := s.assignAll effect.assignments
      match effect.fault with
      | some fault => (after, some ⟨[.about name], .malformedDocument fault⟩)
      | none =>
        if effect.problems ≠ [] then
          (after, some ⟨[.about name], .unsuitableDocument effect.problems⟩)
        else if after.output = [] then (after, some (.ofCause (.emptyOutputName name)))
        else (after, none)

end Settings

end StackAsm
