import StackAsm.Yaml.Cursor

set_option autoImplicit false

namespace StackAsm.Yaml

structure Gap where
  blanks : Bytes := []
  broken : Bool := false
  first : Bytes := []
  more : Bytes := []

-- What a gap counts as: one line feed is a blank, and more of them are one fewer.
def Gap.text (g : Gap) : Bytes :=
  if !g.broken then g.blanks
  else if g.first == utf8 "\n" then if g.more == [] then utf8 " " else g.more
  else g.first ++ g.more

namespace Reading

-- Reads white space. After a line break, no tab is allowed before the column `floor`.
def gap (start : Mark) (floor : Nat) (g : Gap) : Reading Gap :=
  repeated
    (fun g => do
      ensure 1
      let c ← peek 0
      if isBlank c then
        if g.broken && (← mark).column < floor && c == '\t' then refuse start .tabInIndentation
        skip
        return .inl (if g.broken then g else { g with blanks := g.blanks ++ charBytes c })
      else if isBreak c then
        ensure 2
        let b ← lineBreak
        return .inl (if g.broken then { g with more := g.more ++ b }
          else { g with blanks := [], broken := true, first := b })
      else return .inr g)
    id g

def letterEscapes : List (Char × Nat) :=
  [('0', 0x0), ('a', 0x7), ('b', 0x8), ('t', 0x9), ('\t', 0x9), ('n', 0xA), ('v', 0xB), ('f', 0xC),
    ('r', 0xD), ('e', 0x1B), (' ', 0x20), ('"', 0x22), ('\'', 0x27), ('\\', 0x5C), ('N', 0x85),
    ('_', 0xA0), ('L', 0x2028), ('P', 0x2029)]

def digitEscapes : List (Char × Nat) :=
  [('x', 2), ('u', 4), ('U', 8)]

def codePoint (start : Mark) (digits : Nat) : Reading Bytes := do
  ensure digits
  match Numeral.natural? 16 (((← get).ahead.take digits).flatMap charBytes) with
  | none => refuse start .expectedHexadecimal
  | some code =>
    if !code.isValidChar then refuse start .invalidEscapedCharacter
    skipTimes digits
    return charBytes (Char.ofNat code)

def escape (start : Mark) : Reading Bytes := do
  let c ← peek 1
  match letterEscapes.lookup c, digitEscapes.lookup c with
  | some code, _ =>
    skipTimes 2
    return charBytes (Char.ofNat code)
  | none, some digits =>
    skipTimes 2
    codePoint start digits
  | none, none => refuse start .unknownEscape

-- Reads up to white space or the closing quote. Tells whether it ended with an escaped line break,
-- which stands for nothing.
def quotedRun (start : Mark) (single : Bool) : Reading (Bytes × Bool) := do
  let (parts, broken) ← repeated
    (fun parts => do
      let c ← peek 0
      if isBlankOrEnd c then return .inr (parts, false)
      else if single then
        if c != '\'' then
          skip
          ensure 2
          return .inl (charBytes c :: parts)
        else if (← peek 1) == '\'' then
          skipTimes 2
          ensure 2
          return .inl (utf8 "'" :: parts)
        else return .inr (parts, false)
      else if c == '"' then return .inr (parts, false)
      else if c != '\\' then
        skip
        ensure 2
        return .inl (charBytes c :: parts)
      else if isBreak (← peek 1) then
        ensure 3
        skip
        skipBreak
        return .inr (parts, true)
      else
        let part ← escape start
        ensure 2
        return .inl (part :: parts))
    (fun parts => (parts, false)) []
  return (parts.reverse.flatten, broken)

def quoted (single : Bool) : Reading Bytes := do
  let start ← mark
  skip
  let parts ← repeated
    (fun parts => do
      ensure 4
      if ← atDocumentMark then refuse start .documentMarkInQuotes
      if (← peek 0) == endChar then refuse start .endInQuotes
      let (run, broken) ← quotedRun start single
      ensure 1
      if (← peek 0) == (if single then '\'' else '"') then return .inr (run :: parts)
      else
        let g ← gap start 0 { broken := broken }
        return .inl (g.text :: run :: parts))
    id []
  skip
  return parts.reverse.flatten

end Reading

end StackAsm.Yaml
