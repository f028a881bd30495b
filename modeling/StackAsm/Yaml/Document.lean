import StackAsm.Yaml.Lexer
import StackAsm.Yaml.Node

set_option autoImplicit false

namespace StackAsm.Yaml

structure Builder where
  lexer : Lexer
  handles : List (Bytes × Bytes) := []
  -- Anchors with the numbers of their nodes, the latest first.
  anchors : List (Bytes × Nat) := []
  anchored : List (Nat × Node) := []

abbrev Building := StateT Builder (Except Fault)

structure Properties where
  start : Mark
  anchor : Option Bytes := none
  tag : Option Bytes := none

namespace Building

def lexing {α : Type} (step : Lexing α) : Building α := do
  let b ← get
  let (a, lexer) ← step b.lexer
  set { b with lexer := lexer }
  return a

def peek : Building Token :=
  lexing Lexing.peek

def take : Building Unit :=
  lexing Lexing.take

def refuse {α : Type} (context problem : Mark) (reason : Reason) : Building α :=
  throw (.structural context problem reason)

def emptyScalar (m : Mark) : Node :=
  .scalar (m.line + 1) .null []

-- The tag of a node. A lone exclamation mark says no more than that there is a node.
def tagOr (p : Properties) (default : Tag) : Tag :=
  match p.tag with
  | none => default
  | some written => if written == utf8 "!" then default else .ofName written

def scalarNode (p : Properties) (value : Bytes) (style : Style) : Node :=
  let default :=
    if style != .plain then .text
    else if value == Node.mergeMark then .merge
    else spelledTag true value
  .scalar (p.start.line + 1) (tagOr p default) value

def writtenTag (start : Mark) (tag : Mark × Bytes × Bytes) : Building Bytes := do
  let (place, handle, rest) := tag
  if handle == [] then return rest
  else
    match (← get).handles.lookup handle with
    | some meaning => return meaning ++ rest
    | none => refuse start place .undefinedTagHandle

def anchor? : Building (Option Bytes) := do
  match (← peek).kind with
  | .anchor name =>
    take
    return some name
  | _ => return none

def tag? : Building (Option (Mark × Bytes × Bytes)) := do
  let t ← peek
  match t.kind with
  | .tag handle rest =>
    take
    return some (t.start, handle, rest)
  | _ => return none

def properties : Building Properties := do
  let start := (← peek).start
  let early ← anchor?
  let tag ← tag?
  let late ← if early.isNone && tag.isSome then anchor? else pure none
  let _ ← peek
  let written ←
    match tag with
    | none => pure none
    | some tag => do pure (some (← writtenTag start tag))
  return ⟨start, early.or late, written⟩

-- Builds a node, to which aliases can refer from its start if it is anchored.
def anchoring (anchor : Option Bytes) (build : Building Node) : Building Node := do
  match anchor with
  | none => build
  | some name =>
    let number := (← get).anchors.length
    modify fun b => { b with anchors := (name, number) :: b.anchors }
    let n ← build
    modify fun b => { b with anchored := (number, n) :: b.anchored }
    return n

def referenceNode (place : Mark) (name : Bytes) : Building Node := do
  match (← get).anchors.lookup name with
  | none => throw (.overall (.unknownAnchor name))
  | some number => return .reference (place.line + 1) place.index name number

def endsBlockEntry (kind : TokenKind) : Bool :=
  kind == .key || kind == .value || kind == .blockEnd

mutual

/-- Builds a node. Block collections are nodes only in block form; a sequence can do without
indentation as the key or value of a mapping. -/
def node (inBlock indentless : Bool) : Nat → Building Node
  | 0 => throw (.overall .tooDeep)
  | fuel + 1 => do
    let t ← peek
    match t.kind with
    | .reference name =>
      take
      referenceNode t.start name
    | _ =>
      let p ← properties
      anchoring p.anchor (content inBlock indentless p fuel)

def content (inBlock indentless : Bool) (p : Properties) : Nat → Building Node
  | 0 => throw (.overall .tooDeep)
  | fuel + 1 => do
    let t ← peek
    let line := p.start.line + 1
    match t.kind, inBlock, indentless with
    | .blockEntry, _, true =>
      return .sequence line (tagOr p .sequence) (← indentlessItems fuel)
    | .scalar value style, _, _ =>
      take
      return scalarNode p value style
    | .flowSequenceStart, _, _ =>
      take
      return .sequence line (tagOr p .sequence) (← flowItems t.start true fuel)
    | .flowMappingStart, _, _ =>
      take
      return .mapping line (tagOr p .mapping) (← flowEntries t.start true fuel)
    | .blockSequenceStart, true, _ =>
      take
      return .sequence line (tagOr p .sequence) (← blockItems t.start fuel)
    | .blockMappingStart, true, _ =>
      take
      return .mapping line (tagOr p .mapping) (← blockEntries t.start fuel)
    | _, _, _ =>
      if p.anchor.isSome || p.tag.isSome then return scalarNode p [] .plain
      else refuse p.start t.start .expectedContent

def blockItems (context : Mark) : Nat → Building (List Node)
  | 0 => return []
  | fuel + 1 => do
    let t ← peek
    match t.kind with
    | .blockEntry =>
      take
      let next := (← peek).kind
      let item ←
        if next == .blockEntry || next == .blockEnd then pure (emptyScalar t.stop)
        else node true false fuel
      return item :: (← blockItems context fuel)
    | .blockEnd =>
      take
      return []
    | _ => refuse context t.start .expectedHyphen

def indentlessItems : Nat → Building (List Node)
  | 0 => return []
  | fuel + 1 => do
    let t ← peek
    match t.kind with
    | .blockEntry =>
      take
      let next := (← peek).kind
      let item ←
        if next == .blockEntry || endsBlockEntry next then pure (emptyScalar t.stop)
        else node true false fuel
      return item :: (← indentlessItems fuel)
    | _ => return []

def blockEntries (context : Mark) : Nat → Building (List (Node × Node))
  | 0 => return []
  | fuel + 1 => do
    let t ← peek
    match t.kind with
    | .key =>
      take
      let key ←
        if endsBlockEntry (← peek).kind then pure (emptyScalar t.stop) else node true true fuel
      let value ← blockValue fuel
      return (key, value) :: (← blockEntries context fuel)
    | .blockEnd =>
      take
      return []
    | _ => refuse context t.start .expectedKey

def blockValue : Nat → Building Node
  | 0 => throw (.overall .tooDeep)
  | fuel + 1 => do
    let t ← peek
    if t.kind == .value then
      take
      if endsBlockEntry (← peek).kind then return emptyScalar t.stop else node true true fuel
    else return emptyScalar t.start

def flowItems (context : Mark) (first : Bool) : Nat → Building (List Node)
  | 0 => return []
  | fuel + 1 => do
    let t ← peek
    if t.kind == .flowEntry && !first then take
    else if t.kind != .flowSequenceEnd && !first then refuse context t.start .expectedItemEnd
    let t ← peek
    match t.kind with
    | .flowSequenceEnd =>
      take
      return []
    | .key =>
      take
      let pair ← flowPair fuel
      return .mapping (t.start.line + 1) .mapping [pair] :: (← flowItems context false fuel)
    | _ =>
      let item ← node false false fuel
      return item :: (← flowItems context false fuel)

-- Builds an entry that is an item of a sequence. A token that shows its key to be empty belongs to
-- the key.
def flowPair : Nat → Building (Node × Node)
  | 0 => throw (.overall .tooDeep)
  | fuel + 1 => do
    let t ← peek
    let key ←
      if t.kind == .value || t.kind == .flowEntry || t.kind == .flowSequenceEnd then do
        take
        pure (emptyScalar t.stop)
      else node false false fuel
    let t ← peek
    let value ←
      if t.kind == .value then do
        take
        let next := (← peek).kind
        if next == .flowEntry || next == .flowSequenceEnd then pure (emptyScalar t.start)
        else node false false fuel
      else pure (emptyScalar t.start)
    let _ ← peek
    return (key, value)

def flowEntries (context : Mark) (first : Bool) : Nat → Building (List (Node × Node))
  | 0 => return []
  | fuel + 1 => do
    let t ← peek
    if t.kind == .flowEntry && !first then take
    else if t.kind != .flowMappingEnd && !first then refuse context t.start .expectedEntryEnd
    let t ← peek
    match t.kind with
    | .flowMappingEnd =>
      take
      return []
    | .key =>
      take
      let next ← peek
      let key ←
        if next.kind == .value || next.kind == .flowEntry || next.kind == .flowMappingEnd then
          pure (emptyScalar next.start)
        else node false false fuel
      let value ← flowValue fuel
      return (key, value) :: (← flowEntries context false fuel)
    | _ =>
      let key ← node false false fuel
      let value := emptyScalar (← peek).start
      return (key, value) :: (← flowEntries context false fuel)

def flowValue : Nat → Building Node
  | 0 => throw (.overall .tooDeep)
  | fuel + 1 => do
    if (← peek).kind == .value then take
    else return emptyScalar (← peek).start
    let t ← peek
    if t.kind == .flowEntry || t.kind == .flowMappingEnd then return emptyScalar t.start
    else node false false fuel

end

def defaultHandles : List (Bytes × Bytes) :=
  [(utf8 "!", utf8 "!"), (utf8 "!!", Tag.standardHead)]

def isDirective : TokenKind → Bool
  | .version .. | .tagHandle .. => true
  | _ => false

-- Reads directives; `versioned` tells whether one was that of the version.
def directives (versioned : Bool) : Nat → Building Unit
  | 0 => return
  | fuel + 1 => do
    let t ← peek
    match t.kind with
    | .version major minor =>
      if versioned then refuse {} t.start .repeatedVersion
      if major != 1 || minor != 1 then refuse {} t.start .incompatibleVersion
      take
      directives true fuel
    | .tagHandle handle meaning =>
      if ((← get).handles.lookup handle).isSome then refuse {} t.start .repeatedTagHandle
      modify fun b => { b with handles := b.handles ++ [(handle, meaning)] }
      take
      directives versioned fuel
    | _ => modify fun b => { b with handles := b.handles ++ defaultHandles }

def endsDocument (kind : TokenKind) : Bool :=
  isDirective kind || kind == .documentStart || kind == .documentEnd || kind == .streamEnd

def root? (fuel : Nat) : Building (Option Node) := do
  let _ ← peek
  take
  let t ← peek
  if t.kind == .streamEnd then return none
  else
    directives false fuel
    let root ←
      if isDirective t.kind || t.kind == .documentStart then do
        let t ← peek
        if t.kind != .documentStart then refuse {} t.start .expectedDocumentStart
        take
        let t ← peek
        if endsDocument t.kind then pure (emptyScalar t.start) else node true false fuel
      else node true false fuel
    let _ ← peek
    return some root

end Building

def Document.read (data : Bytes) : Except Fault (Option Document) := do
  let fuel := 16 * (data.length + 16)
  let (root, b) ← Building.root? fuel { lexer := .ofBytes data }
  return root.map fun root => ⟨root, b.anchored, data.length⟩

end StackAsm.Yaml
