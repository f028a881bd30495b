import StackAsm.Yaml.Block
import StackAsm.Yaml.Comment
import StackAsm.Yaml.Plain
import StackAsm.Yaml.Property

set_option autoImplicit false

/-!
The tokens of a document, one after the other. A key of a mapping shows only at the colon after it,
so tokens wait in a queue as long as the first of them can turn out to be a key; and there are
always three in the queue, so that what is wrong with a token comes up before it is asked for.
-/

namespace StackAsm.Yaml

structure KeyCandidate where
  possible : Bool := false
  -- At its place there can be nothing but a key.
  required : Bool := false
  number : Nat := 0
  mark : Mark := {}
  deriving DecidableEq, Repr

structure Lexer where
  cursor : Cursor
  started : Bool := false
  queue : List Token := []
  taken : Nat := 0
  ready : Bool := false
  -- A candidate for block form and for each open flow collection, the innermost first.
  candidates : List KeyCandidate := [{}]
  -- The level of the candidate that a token of some number is, the outermost being zero.
  levels : List (Nat × Nat) := []
  keyAllowed : Bool := true
  -- The columns of the open block collections, the innermost first.
  columns : List Nat := []

def Lexer.ofBytes (data : Bytes) : Lexer :=
  { cursor := .ofBytes data }

abbrev Lexing := StateT Lexer (Except Fault)

def deepest : Nat := 10000

namespace Lexer

def inFlow (l : Lexer) : Bool :=
  match l.candidates with
  | _ :: _ :: _ => true
  | _ => false

def floor (l : Lexer) : Nat :=
  match l.columns with
  | [] => 0
  | column :: _ => column + 1

def nextNumber (l : Lexer) : Nat :=
  l.taken + l.queue.length

def insert (l : Lexer) (number : Nat) (t : Token) : Lexer :=
  if number < l.taken then { l with queue := l.queue ++ [t] }
  else
    let place := number - l.taken
    { l with queue := l.queue.take place ++ t :: l.queue.drop place }

def forgetLevel (l : Lexer) (number : Nat) : List (Nat × Nat) :=
  l.levels.filter fun e => e.1 != number

end Lexer

namespace Lexing

def reading {α : Type} (r : Reading α) : Lexing α := do
  let l ← get
  let (a, cursor) ← r l.cursor
  set { l with cursor := cursor }
  return a

def mark : Lexing Mark := do
  return (← get).cursor.mark

def push (t : Token) : Lexing Unit :=
  modify fun l => { l with queue := l.queue ++ [t] }

def allowKey (allowed : Bool) : Lexing Unit :=
  modify fun l => { l with keyAllowed := allowed }

def refuse {α : Type} (start : Mark) (reason : Reason) : Lexing α := do
  throw (.lexical start (← mark) reason)

def dropCandidate : Lexing Unit := do
  let l ← get
  match l.candidates with
  | candidate :: outer =>
    if candidate.possible then
      if candidate.required then refuse candidate.mark .expectedColon
      set { l with
        candidates := { candidate with possible := false } :: outer
        levels := l.forgetLevel candidate.number }
  | [] => return

def addCandidate : Lexing Unit := do
  if (← get).keyAllowed then
    dropCandidate
    let l ← get
    let candidate : KeyCandidate :=
      { possible := true
        required := !l.inFlow && l.columns.head? == some l.cursor.mark.column
        number := l.nextNumber
        mark := l.cursor.mark }
    set { l with
      candidates := candidate :: l.candidates.tail
      levels := (candidate.number, l.candidates.length - 1) :: l.levels }

def keyReach : Nat := 1024

/-- Whether the candidate of a level can still be a key: the colon has to be on the same line and
not too far away. -/
def isLive (level : Nat) : Lexing Bool := do
  let l ← get
  let place := l.candidates.length - 1 - level
  match l.candidates[place]? with
  | none => return false
  | some candidate =>
    if !candidate.possible then return false
    else if candidate.mark.line < l.cursor.mark.line ||
        candidate.mark.index + keyReach < l.cursor.mark.index then
      if candidate.required then refuse candidate.mark .expectedColon
      set { l with candidates := l.candidates.set place { candidate with possible := false } }
      return false
    else return true

def openFlow : Lexing Unit := do
  let l ← get
  if deepest < l.candidates.length then refuse l.cursor.mark .tooDeep
  set { l with candidates := { number := l.nextNumber, mark := l.cursor.mark } :: l.candidates }

def closeFlow : Lexing Unit := do
  let l ← get
  match l.candidates with
  | candidate :: outer :: rest =>
    set { l with candidates := outer :: rest, levels := l.forgetLevel candidate.number }
  | _ => return

-- Opens a block collection at a column, if it is further in than the open ones. Its token comes
-- before that of a number.
def openBlock (column number : Nat) (kind : TokenKind) (start : Mark) : Lexing Unit := do
  let l ← get
  if !l.inFlow && l.floor ≤ column then
    if deepest ≤ l.columns.length then
      refuse ((l.candidates.head?.map KeyCandidate.mark).getD {}) .tooDeep
    set ({ l with columns := column :: l.columns }.insert number ⟨kind, start, start⟩)

def closeInnermost (count : Nat) : Lexing Unit :=
  modify fun l =>
    let closing : Token := ⟨.blockEnd, l.cursor.mark, l.cursor.mark⟩
    { l with
      columns := l.columns.drop count
      queue := l.queue ++ List.replicate count closing }

def closeBlocks (column : Nat) : Lexing Unit := do
  let l ← get
  if !l.inFlow then closeInnermost (l.columns.takeWhile (column < ·)).length

def closeAllBlocks : Lexing Unit := do
  let l ← get
  if !l.inFlow then closeInnermost l.columns.length

def pushMark (kind : TokenKind) (count : Nat) : Lexing Unit := do
  let start ← mark
  reading (.skipTimes count)
  push ⟨kind, start, ← mark⟩

def fetchStart : Lexing Unit := do
  modify fun l => { l with started := true }
  push ⟨.streamStart, ← mark, ← mark⟩

def fetchEnd : Lexing Unit := do
  modify fun l =>
    let m := l.cursor.mark
    if m.column == 0 then l
    else { l with cursor := { l.cursor with mark := { m with line := m.line + 1, column := 0 } } }
  closeAllBlocks
  dropCandidate
  allowKey false
  push ⟨.streamEnd, ← mark, ← mark⟩

def fetchDirective : Lexing Unit := do
  closeAllBlocks
  dropCandidate
  allowKey false
  push (← reading .directive)

def fetchDocumentMark (kind : TokenKind) : Lexing Unit := do
  closeAllBlocks
  dropCandidate
  allowKey false
  pushMark kind 3

def fetchFlowStart (kind : TokenKind) : Lexing Unit := do
  addCandidate
  openFlow
  allowKey true
  pushMark kind 1

def fetchFlowEnd (kind : TokenKind) : Lexing Unit := do
  dropCandidate
  closeFlow
  allowKey false
  pushMark kind 1

def fetchFlowEntry : Lexing Unit := do
  dropCandidate
  allowKey true
  pushMark .flowEntry 1

-- In flow form a hyphen is read as an entry that does not belong there.
def fetchBlockEntry : Lexing Unit := do
  let l ← get
  if !l.inFlow then
    if !l.keyAllowed then refuse l.cursor.mark .misplacedEntry
    openBlock l.cursor.mark.column l.nextNumber .blockSequenceStart l.cursor.mark
  dropCandidate
  allowKey true
  pushMark .blockEntry 1

def fetchKey : Lexing Unit := do
  let l ← get
  if !l.inFlow then
    if !l.keyAllowed then refuse l.cursor.mark .misplacedKey
    openBlock l.cursor.mark.column l.nextNumber .blockMappingStart l.cursor.mark
  dropCandidate
  allowKey !l.inFlow
  pushMark .key 1

-- A colon makes the candidate a key, or follows a key that has a mark of its own.
def fetchValue : Lexing Unit := do
  if ← isLive ((← get).candidates.length - 1) then
    let l ← get
    let candidate := l.candidates.headD {}
    set (l.insert candidate.number ⟨.key, candidate.mark, candidate.mark⟩)
    openBlock candidate.mark.column candidate.number .blockMappingStart candidate.mark
    modify fun l =>
      { l with
        candidates := { candidate with possible := false } :: l.candidates.tail
        levels := l.forgetLevel candidate.number
        keyAllowed := false }
  else
    let l ← get
    if !l.inFlow then
      if !l.keyAllowed then refuse l.cursor.mark .misplacedValue
      openBlock l.cursor.mark.column l.nextNumber .blockMappingStart l.cursor.mark
    allowKey !l.inFlow
  pushMark .value 1

def fetchInline (r : Reading TokenKind) : Lexing Unit := do
  addCandidate
  allowKey false
  let start ← mark
  let kind ← reading r
  push ⟨kind, start, ← mark⟩

def fetchBlockScalar (folded : Bool) : Lexing Unit := do
  dropCandidate
  allowKey true
  let start ← mark
  let text ← reading (.block folded (← get).floor)
  push ⟨.scalar text .block, start, ← mark⟩

def fetchPlain : Lexing Unit := do
  addCandidate
  allowKey false
  let l ← get
  let scalar ← reading (.plain l.inFlow l.floor)
  push ⟨.scalar scalar.text .plain, l.cursor.mark, scalar.stop⟩
  if scalar.broken then allowKey true

def isIndicator (c : Char) : Bool :=
  ['-', '?', ':', ',', '[', ']', '\x7b', '\x7d', '#', '&', '*', '!', '|', '>', '\'', '"', '%', '@',
    '\x60'].contains c

def fetchToken (inFlow : Bool) (c d : Char) : Lexing Unit := do
  if c == '[' then fetchFlowStart .flowSequenceStart
  else if c == '\x7b' then fetchFlowStart .flowMappingStart
  else if c == ']' then fetchFlowEnd .flowSequenceEnd
  else if c == '\x7d' then fetchFlowEnd .flowMappingEnd
  else if c == ',' then fetchFlowEntry
  else if c == '-' && isBlankOrEnd d then fetchBlockEntry
  else if c == '?' && (inFlow || isBlankOrEnd d) then fetchKey
  else if c == ':' && (inFlow || isBlankOrEnd d) then fetchValue
  else if c == '*' then fetchInline (do return .reference (← .anchorName))
  else if c == '&' then fetchInline (do return .anchor (← .anchorName))
  else if c == '!' then
    fetchInline do
      let (handle, rest) ← Reading.tagParts
      return .tag handle rest
  else if c == '|' && !inFlow then fetchBlockScalar false
  else if c == '>' && !inFlow then fetchBlockScalar true
  else if c == '\'' then fetchInline (do return .scalar (← .quoted true) .quoted)
  else if c == '"' then fetchInline (do return .scalar (← .quoted false) .quoted)
  else if !(isBlankOrEnd c || isIndicator c) || (c == '-' && !isBlank d) ||
      (!inFlow && (c == '?' || c == ':') && !isBlankOrEnd d) then fetchPlain
  else refuse (← mark) .unknownToken

def fetch : Lexing Unit := do
  reading (.ensure 1)
  if !(← get).started then fetchStart
  else
    let l ← get
    allowKey (← reading (.toToken l.inFlow l.keyAllowed))
    closeBlocks (← mark).column
    reading (.ensure 4)
    let c ← reading (.peek 0)
    if c == endChar then fetchEnd
    else if (← mark).column == 0 && c == '%' then fetchDirective
    else if ← reading (.atMarker '-') then fetchDocumentMark .documentStart
    else if ← reading (.atMarker '.') then fetchDocumentMark .documentEnd
    else
      fetchToken l.inFlow c (← reading (.peek 1))
      if (← get).queue.getLast?.map Token.kind != some .blockEntry then reading .lineComment

def isSettled : Lexing Bool := do
  let l ← get
  if l.queue.length < 3 then return false
  else
    match l.levels.lookup l.taken with
    | none => return true
    | some level => return !(← isLive level)

def fetchUntilSettled : Nat → Lexing Unit
  | 0 => return
  | fuel + 1 => do
    if !(← isSettled) then
      fetch
      fetchUntilSettled fuel

def peek : Lexing Token := do
  if !(← get).ready then
    fetchUntilSettled (← get).cursor.bound
    modify fun l => { l with ready := true }
  let l ← get
  return l.queue.headD ⟨.streamEnd, l.cursor.mark, l.cursor.mark⟩

def take : Lexing Unit :=
  modify fun l => { l with queue := l.queue.tail, taken := l.taken + 1, ready := false }

end Lexing

end StackAsm.Yaml
