import StackAsm.Yaml.Cursor
import StackAsm.Yaml.Token

set_option autoImplicit false

namespace StackAsm.Yaml

def isUriMark (c : Char) : Bool :=
  [';', '/', '?', ':', '@', '&', '=', '+', '$', ',', '.', '!', '~', '*', '\'', '(', ')', '[',
    ']'].contains c

def isAfterName (c : Char) : Bool :=
  isBlankOrEnd c || ['?', ':', ',', ']', '\x7d', '%', '@', '\x60'].contains c

def hexValue? (c : Char) : Option Nat :=
  Numeral.natural? 16 (charBytes c)

namespace Reading

def anchorName : Reading Bytes := do
  let start ← mark
  skip
  let name ← takeWhile isNameChar
  if name == [] || !isAfterName (← peek 0) then refuse start .expectedName
  return name.flatMap charBytes

def uriOctet (start : Mark) : Reading UInt8 := do
  ensure 3
  match (← peek 0) == '%', hexValue? (← peek 1), hexValue? (← peek 2) with
  | true, some high, some low =>
    skipTimes 3
    return UInt8.ofNat (16 * high + low)
  | _, _, _ => refuse start .expectedUriEscape

def uriTrailingOctet (start : Mark) : Reading UInt8 := do
  let b ← uriOctet start
  if !Encoding.isTrailing b then refuse start .badUriTrailingOctet
  return b

def uriEscapes (start : Mark) : Reading Bytes := do
  let b ← uriOctet start
  match Encoding.octets? b with
  | none => refuse start .badUriLeadingOctet
  | some size => return b :: (← (List.replicate (size - 1) ()).mapM fun _ => uriTrailingOctet start)

def uri (start : Mark) (head : Bytes) : Reading Bytes := do
  let parts ← repeated
    (fun parts => do
      ensure 1
      let c ← peek 0
      if c == '%' then return .inl ((← uriEscapes start) :: parts)
      else if isNameChar c || isUriMark c then
        skip
        return .inl (charBytes c :: parts)
      else return .inr parts)
    id []
  if head == [] && parts == [] then refuse start .expectedTagUri
  return head.drop 1 ++ parts.reverse.flatten

/-- Reads the handle of a tag: an exclamation mark, and perhaps a name and another one. A directive
has to have the other one after a name. -/
def handle (start : Mark) (inDirective : Bool) : Reading Bytes := do
  ensure 1
  if (← peek 0) != '!' then refuse start .expectedTagMark
  skip
  let name ← takeWhile isNameChar
  if (← peek 0) == '!' then
    skip
    return utf8 "!" ++ name.flatMap charBytes ++ utf8 "!"
  else
    if inDirective && name != [] then refuse start .expectedTagMark
    return utf8 "!" ++ name.flatMap charBytes

-- Reads a tag as a handle and the rest. The handle is empty if the rest says all.
def tagParts : Reading (Bytes × Bytes) := do
  let start ← mark
  ensure 2
  let parts ←
    if (← peek 1) == '<' then do
      skipTimes 2
      let rest ← uri start []
      if (← peek 0) != '>' then refuse start .expectedTagEnd
      skip
      pure (([] : Bytes), rest)
    else do
      let written ← handle start false
      if 1 < written.length && written.getLast? == some 0x21 then
        pure (written, ← uri start [])
      else
        let rest ← uri start written
        pure (if rest == [] then ([], written) else (utf8 "!", rest))
  ensure 1
  if !isBlankOrEnd (← peek 0) then refuse start .expectedBlankOrBreak
  return parts

def versionNumber (start : Mark) : Reading Nat := do
  let (digits, value) ← repeated
    (fun (digits, value) => do
      ensure 1
      let c ← peek 0
      if c.isDigit then
        if digits == 2 then refuse start .longVersion
        skip
        return .inl (digits + 1, 10 * value + (c.toNat - 0x30))
      else return .inr (digits, value))
    id (0, 0)
  if digits == 0 then refuse start .expectedVersion
  return value

def versionDirective (start : Mark) : Reading TokenKind := do
  skipWhile isBlank
  let major ← versionNumber start
  if (← peek 0) != '.' then refuse start .expectedVersionPoint
  skip
  return .version major (← versionNumber start)

def tagDirective (start : Mark) : Reading TokenKind := do
  skipWhile isBlank
  let name ← handle start true
  ensure 1
  if !isBlank (← peek 0) then refuse start .expectedBlank
  skipWhile isBlank
  let meaning ← uri start []
  ensure 1
  if !isBlankOrEnd (← peek 0) then refuse start .expectedBlankOrBreak
  return .tagHandle name meaning

def directive : Reading Token := do
  let start ← mark
  skip
  let name ← takeWhile isNameChar
  if name == [] then refuse start .expectedDirectiveName
  if !isBlankOrEnd (← peek 0) then refuse start .unexpectedInDirectiveName
  let kind ←
    if name == ['Y', 'A', 'M', 'L'] then versionDirective start
    else if name == ['T', 'A', 'G'] then tagDirective start
    else refuse start .unknownDirective
  let stop ← mark
  skipWhile isBlank
  if (← peek 0) == '#' then skipWhile (!isBreakOrEnd ·)
  if !isBreakOrEnd (← peek 0) then refuse start .expectedLineEnd
  if isBreak (← peek 0) then
    ensure 2
    skipBreak
  return ⟨kind, start, stop⟩

end Reading

end StackAsm.Yaml
