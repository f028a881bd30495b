import StackAsm.Yaml.Encoding

set_option autoImplicit false

namespace StackAsm.Yaml

structure Cursor where
  ahead : List Char := []
  pages : List (List Char)
  fault : Option Reason
  -- Whether what was ahead when pages were last turned started with a byte order mark.
  marked : Bool := false
  mark : Mark := {}
  -- The line breaks passed after the last character that is not blank.
  breaks : Nat := 0
  -- More than the characters of the document: no loop over them goes on for longer.
  bound : Nat
  deriving DecidableEq, Repr

abbrev Reading := StateT Cursor (Except Fault)

def Cursor.ofBytes (data : Bytes) : Cursor :=
  let text := Pages.ofBytes data
  { pages := text.pages, fault := text.fault
    bound := total (text.pages.map List.length) + 16 }

def endChar : Char := Char.ofNat 0

def byteOrderMark : Char := Char.ofNat 0xFEFF

def isBlank (c : Char) : Bool :=
  c == ' ' || c == '\t'

def isBreak (c : Char) : Bool :=
  c == '\r' || c == '\n' || c == Char.ofNat 0x85 || c == Char.ofNat 0x2028 ||
    c == Char.ofNat 0x2029

def isBreakOrEnd (c : Char) : Bool :=
  isBreak c || c == endChar

def isBlankOrEnd (c : Char) : Bool :=
  isBlank c || isBreakOrEnd c

def isNameChar (c : Char) : Bool :=
  c.isAlphanum || c == '_' || c == '-'

def charBytes (c : Char) : Bytes :=
  String.utf8EncodeChar c

namespace Cursor

def has (ahead : List Char) (count : Nat) : Bool :=
  count == 0 || !(ahead.drop (count - 1)).isEmpty

def turn (count : Nat) (ahead : List Char) : List (List Char) → List Char × List (List Char)
  | [] => (ahead, [])
  | page :: pages =>
    if has (ahead ++ page) count then (ahead ++ page, pages) else turn count (ahead ++ page) pages

def load (c : Cursor) (count : Nat) : Except Fault Cursor :=
  if has c.ahead count then .ok c
  else
    let (ahead, pages) := turn count c.ahead c.pages
    let turned :=
      { c with ahead := ahead, pages := pages, marked := ahead.head? == some byteOrderMark }
    if has ahead count then .ok turned
    else
      match c.fault with
      | some reason => .error (.overall reason)
      | none => .ok { turned with ahead := ahead ++ [endChar] }

def pass (c : Cursor) : Cursor :=
  { c with
    ahead := c.ahead.tail
    mark := { c.mark with index := c.mark.index + 1, column := c.mark.column + 1 }
    breaks := if (c.ahead.head?.map isBlank).getD false then c.breaks else 0 }

def passBreak (c : Cursor) (count : Nat) : Cursor :=
  { c with
    ahead := c.ahead.drop count
    mark := ⟨c.mark.index + count, c.mark.line + 1, 0⟩
    breaks := c.breaks + 1 }

end Cursor

namespace Reading

def ensure (count : Nat) : Reading Unit := do
  let c ← get
  set (← c.load count)

def peek (distance : Nat) : Reading Char := do
  return (← get).ahead.getD distance endChar

def mark : Reading Mark := do
  return (← get).mark

def bound : Reading Nat := do
  return (← get).bound

def skip : Reading Unit :=
  modify Cursor.pass

def skipTimes (count : Nat) : Reading Unit :=
  modify (Nat.repeat Cursor.pass count)

def next : Reading Char := do
  let c ← peek 0
  skip
  return c

/-- Reads a line break, if there is one, as it counts in a scalar: as a line feed, if it is not one
of the two separators that keep their identity. -/
def lineBreak : Reading Bytes := do
  let c ← peek 0
  if c == '\r' && (← peek 1) == '\n' then
    modify (·.passBreak 2)
    return utf8 "\n"
  else if c == '\r' || c == '\n' || c == Char.ofNat 0x85 then
    modify (·.passBreak 1)
    return utf8 "\n"
  else if isBreak c then
    modify (·.passBreak 1)
    return charBytes c
  else return []

def skipBreak : Reading Unit := do
  let _ ← lineBreak

def refuse {α : Type} (start : Mark) (reason : Reason) : Reading α := do
  throw (.lexical start (← mark) reason)

-- Repeats a step on some data until it gives a result; there is always one before the document has
-- been passed.
def repeatUpTo {α β : Type} (step : α → Reading (α ⊕ β)) (otherwise : α → β) :
    Nat → α → Reading β
  | 0, a => return otherwise a
  | fuel + 1, a => do
    match ← step a with
    | .inl a => repeatUpTo step otherwise fuel a
    | .inr b => return b

def repeated {α β : Type} (step : α → Reading (α ⊕ β)) (otherwise : α → β) (a : α) :
    Reading β := do
  repeatUpTo step otherwise (← bound) a

def takeWhile (p : Char → Bool) : Reading (List Char) := do
  let reversed ← repeated
    (fun taken => do
      ensure 1
      if p (← peek 0) then return .inl ((← next) :: taken) else return .inr taken)
    id []
  return reversed.reverse

def skipWhile (p : Char → Bool) : Reading Unit := do
  let _ ← takeWhile p

def atMarker (c : Char) : Reading Bool := do
  return (← mark).column == 0 && (← peek 0) == c && (← peek 1) == c && (← peek 2) == c &&
    isBlankOrEnd (← peek 3)

def atDocumentMark : Reading Bool := do
  return (← atMarker '-') || (← atMarker '.')

end Reading

end StackAsm.Yaml
