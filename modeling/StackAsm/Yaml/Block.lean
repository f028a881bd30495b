import StackAsm.Yaml.Cursor

set_option autoImplicit false

namespace StackAsm.Yaml

inductive Chomp where
  | clip
  | strip
  | keep
  deriving DecidableEq, Repr

def chompOfChar? (c : Char) : Option Chomp :=
  if c == '+' then some .keep else if c == '-' then some .strip else none

structure BlockText where
  parts : List Bytes := []
  -- The line break after the last line.
  first : Bytes := []
  -- Line breaks of empty lines after it.
  more : Bytes := []
  -- Whether the last line started with a blank.
  blank : Bool := false

/-- Between two lines that do not start with a blank, a folded line feed is a blank, or nothing if
empty lines follow. -/
def BlockText.joint (t : BlockText) (folded blank : Bool) : Bytes :=
  if folded && !t.blank && !blank && t.first == utf8 "\n" then
    if t.more == [] then utf8 " " else t.more
  else t.first ++ t.more

namespace Reading

def indentationMark (start : Mark) : Reading Nat := do
  ensure 1
  let c ← peek 0
  if c == '0' then refuse start .zeroIndentation
  if c.isDigit then
    skip
    return c.toNat - 0x30
  else return 0

def chompMark : Reading (Option Chomp) := do
  ensure 1
  let chomp := chompOfChar? (← peek 0)
  if chomp.isSome then skip
  return chomp

def blockMarks (start : Mark) : Reading (Chomp × Nat) := do
  match ← chompMark with
  | some chomp => return (chomp, ← indentationMark start)
  | none =>
    let indentation ← indentationMark start
    if indentation == 0 then return (.clip, 0)
    else return ((← chompMark).getD .clip, indentation)

/-- Passes indentation and empty lines. An indentation of zero is not known yet; it is that of the
deepest line passed, and at least `floor`. Gives it, and the line breaks. -/
def blockBreaks (start : Mark) (floor indentation : Nat) : Reading (Nat × Bytes) := do
  let inside := fun (column : Nat) => indentation == 0 || column < indentation
  let (deepest, breaks) ← repeated
    (fun (deepest, breaks) => do
      let _ ← repeated
        (fun _ => do
          ensure 1
          if inside (← mark).column && (← peek 0) == ' ' then
            skip
            return .inl ()
          else return .inr ())
        id ()
      let column := (← mark).column
      let deepest := max deepest column
      if inside column && (← peek 0) == '\t' then refuse start .tabInsteadOfIndentation
      if isBreak (← peek 0) then
        ensure 2
        let b ← lineBreak
        return .inl (deepest, breaks ++ b)
      else return .inr (deepest, breaks))
    id (0, ([] : Bytes))
  return (if indentation == 0 then max (max deepest floor) 1 else indentation, breaks)

def block (folded : Bool) (floor : Nat) : Reading Bytes := do
  let start ← mark
  skip
  let (chomp, told) ← blockMarks start
  skipWhile isBlank
  if (← peek 0) == '#' then skipWhile (!isBreakOrEnd ·)
  if !isBreakOrEnd (← peek 0) then refuse start .expectedLineEnd
  if isBreak (← peek 0) then
    ensure 2
    skipBreak
  let (indentation, breaks) ←
    blockBreaks start floor (if told == 0 then 0 else told + (floor - 1))
  ensure 1
  let text ← repeated
    (fun t => do
      let c ← peek 0
      if (← mark).column != indentation || c == endChar then return .inr t
      else
        let blank := isBlank c
        let line ← takeWhile (!isBreakOrEnd ·)
        ensure 2
        let first ← lineBreak
        let (_, more) ← blockBreaks start floor indentation
        return .inl ⟨line.flatMap charBytes :: t.joint folded blank :: t.parts, first, more, blank⟩)
    id ({ more := breaks } : BlockText)
  let tail :=
    match chomp with
    | .strip => []
    | .clip => text.first
    | .keep => text.first ++ text.more
  return text.parts.reverse.flatten ++ tail

end Reading

end StackAsm.Yaml
