import StackAsm.Yaml.Cursor

set_option autoImplicit false

namespace StackAsm.Yaml

def commentReach : Nat := 512

namespace Reading

-- The distance of the next number sign if only characters that can be passed over come before it;
-- `left` characters are looked at.
def commentAhead (passes : Char → Bool) : Nat → Nat → Reading (Option Nat)
  | 0, _ => return none
  | left + 1, distance => do
    ensure (distance + 1)
    let c ← peek distance
    if passes c then commentAhead passes left (distance + 1)
    else return if c == '#' then some distance else none

def lineComment : Reading Unit := do
  if (← get).breaks == 0 then
    if (← commentAhead isBlank commentReach 0).isSome then skipWhile (!isBreakOrEnd ·)

def skipTo (index : Nat) : Reading Unit :=
  repeated
    (fun _ => do
      ensure 1
      if index ≤ (← mark).index then return .inr ()
      else if isBreak (← peek 0) then
        ensure 2
        skipBreak
        return .inl ()
      else
        skip
        return .inl ())
    id ()

def isBetweenComments (c : Char) : Bool :=
  isBlank c || c == '\n' || c == '\r'

-- Passes a comment and those on the lines after it, however they are indented.
def comments : Reading Unit :=
  repeated
    (fun _ => do
      skipWhile (!isBreakOrEnd ·)
      let start ← mark
      let c ← peek 0
      if c == '\n' || c == '\r' then
        match ← commentAhead isBetweenComments (commentReach - 1) 1 with
        | some distance =>
          skipTo (start.index + distance)
          return .inl ()
        | none => return .inr ()
      else
        ensure 2
        return .inr ())
    id ()

/-- Passes white space and comments before a token. In block form a tab is no white space where a
key can start; a key can start after every line break. Tells whether one can start at the token. -/
def toToken (inFlow keyAllowed : Bool) : Reading Bool :=
  repeated
    (fun allowed => do
      ensure 1
      if (← mark).column == 0 && (← get).marked then skip
      skipWhile fun c => c == ' ' || ((inFlow || !allowed) && c == '\t')
      if (← peek 0) == '#' then comments
      if isBreak (← peek 0) then
        ensure 2
        skipBreak
        return .inl (allowed || !inFlow)
      else return .inr allowed)
    id keyAllowed

end Reading

end StackAsm.Yaml
