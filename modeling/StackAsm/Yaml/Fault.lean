import StackAsm.Text.Numeral
import StackAsm.Yaml.Tag

set_option autoImplicit false

namespace StackAsm.Yaml

-- A place in a document: the characters before it, and its line and column from zero.
structure Mark where
  index : Nat := 0
  line : Nat := 0
  column : Nat := 0
  deriving DecidableEq, Repr

inductive Reason where
  | invalidLeadingOctet
  | invalidTrailingOctet
  | incompleteOctets
  | overlongOctets
  | invalidCharacter
  | incompleteUnit
  | unexpectedLowSurrogate
  | expectedLowSurrogate
  | incompleteSurrogatePair
  | controlCharacter
  | unknownToken
  | expectedColon
  | misplacedEntry
  | misplacedKey
  | misplacedValue
  | tooDeep
  | expectedDirectiveName
  | unexpectedInDirectiveName
  | unknownDirective
  | expectedVersion
  | expectedVersionPoint
  | longVersion
  | expectedLineEnd
  | expectedBlank
  | expectedBlankOrBreak
  | expectedTagMark
  | expectedTagUri
  | expectedTagEnd
  | expectedUriEscape
  | badUriLeadingOctet
  | badUriTrailingOctet
  | expectedName
  | zeroIndentation
  | tabInsteadOfIndentation
  | tabInIndentation
  | documentMarkInQuotes
  | endInQuotes
  | unknownEscape
  | expectedHexadecimal
  | invalidEscapedCharacter
  | expectedDocumentStart
  | repeatedVersion
  | incompatibleVersion
  | repeatedTagHandle
  | undefinedTagHandle
  | expectedContent
  | expectedHyphen
  | expectedKey
  | expectedItemEnd
  | expectedEntryEnd
  | unknownAnchor (name : Bytes)
  | anchorInItself (name : Bytes)
  | mistagged (found : Tag) (value : Bytes) (tag : Tag)
  | invalidBase64
  | unmergeable
  deriving DecidableEq, Repr

def Reason.message : Reason → Bytes
  | .invalidLeadingOctet => utf8 "invalid leading UTF-8 octet"
  | .invalidTrailingOctet => utf8 "invalid trailing UTF-8 octet"
  | .incompleteOctets => utf8 "incomplete UTF-8 octet sequence"
  | .overlongOctets => utf8 "invalid length of a UTF-8 sequence"
  | .invalidCharacter => utf8 "invalid Unicode character"
  | .incompleteUnit => utf8 "incomplete UTF-16 character"
  | .unexpectedLowSurrogate => utf8 "unexpected low surrogate area"
  | .expectedLowSurrogate => utf8 "expected low surrogate area"
  | .incompleteSurrogatePair => utf8 "incomplete UTF-16 surrogate pair"
  | .controlCharacter => utf8 "control characters are not allowed"
  | .unknownToken => utf8 "found character that cannot start any token"
  | .expectedColon => utf8 "could not find expected ':'"
  | .misplacedEntry => utf8 "block sequence entries are not allowed in this context"
  | .misplacedKey => utf8 "mapping keys are not allowed in this context"
  | .misplacedValue => utf8 "mapping values are not allowed in this context"
  | .tooDeep => utf8 "exceeded max depth of 10000"
  | .expectedDirectiveName => utf8 "could not find expected directive name"
  | .unexpectedInDirectiveName => utf8 "found unexpected non-alphabetical character"
  | .unknownDirective => utf8 "found unknown directive name"
  | .expectedVersion => utf8 "did not find expected version number"
  | .expectedVersionPoint => utf8 "did not find expected digit or '.' character"
  | .longVersion => utf8 "found extremely long version number"
  | .expectedLineEnd => utf8 "did not find expected comment or line break"
  | .expectedBlank => utf8 "did not find expected whitespace"
  | .expectedBlankOrBreak => utf8 "did not find expected whitespace or line break"
  | .expectedTagMark => utf8 "did not find expected '!'"
  | .expectedTagUri => utf8 "did not find expected tag URI"
  | .expectedTagEnd => utf8 "did not find the expected '>'"
  | .expectedUriEscape => utf8 "did not find URI escaped octet"
  | .badUriLeadingOctet => utf8 "found an incorrect leading UTF-8 octet"
  | .badUriTrailingOctet => utf8 "found an incorrect trailing UTF-8 octet"
  | .expectedName => utf8 "did not find expected alphabetic or numeric character"
  | .zeroIndentation => utf8 "found an indentation indicator equal to 0"
  | .tabInsteadOfIndentation =>
    utf8 "found a tab character where an indentation space is expected"
  | .tabInIndentation => utf8 "found a tab character that violates indentation"
  | .documentMarkInQuotes => utf8 "found unexpected document indicator"
  | .endInQuotes => utf8 "found unexpected end of stream"
  | .unknownEscape => utf8 "found unknown escape character"
  | .expectedHexadecimal => utf8 "did not find expected hexdecimal number"
  | .invalidEscapedCharacter => utf8 "found invalid Unicode character escape code"
  | .expectedDocumentStart => utf8 "did not find expected <document start>"
  | .repeatedVersion => utf8 "found duplicate %YAML directive"
  | .incompatibleVersion => utf8 "found incompatible YAML document"
  | .repeatedTagHandle => utf8 "found duplicate %TAG directive"
  | .undefinedTagHandle => utf8 "found undefined tag handle"
  | .expectedContent => utf8 "did not find expected node content"
  | .expectedHyphen => utf8 "did not find expected '-' indicator"
  | .expectedKey => utf8 "did not find expected key"
  | .expectedItemEnd => utf8 "did not find expected ',' or ']'"
  | .expectedEntryEnd => utf8 "did not find expected ',' or '\x7d'"
  | .unknownAnchor name => utf8 "unknown anchor '" ++ name ++ utf8 "' referenced"
  | .anchorInItself name => utf8 "anchor '" ++ name ++ utf8 "' value contains itself"
  | .mistagged found value tag =>
    utf8 "cannot decode " ++ found.name ++ utf8 " `" ++ value ++ utf8 "` as a " ++ tag.name
  | .invalidBase64 => utf8 "!!binary value contains invalid base64 data"
  | .unmergeable => utf8 "map merge requires map or sequence of maps as the value"

structure Fault where
  line : Option Nat
  reason : Reason
  deriving DecidableEq, Repr

namespace Fault

-- Faults of a whole document or of its encoding are not told with a line.
def overall (reason : Reason) : Fault :=
  ⟨none, reason⟩

/-- The line of what was being read, else of the place where reading stopped. The first line is
never told. -/
def toldLine (context problem : Mark) : Option Nat :=
  if context.line ≠ 0 then some context.line
  else if problem.line ≠ 0 then some problem.line
  else none

-- A fault inside a token. Its lines are told counted from one.
def lexical (context problem : Mark) (reason : Reason) : Fault :=
  ⟨(toldLine context problem).map (· + 1), reason⟩

-- A fault in the order of tokens. Its lines are told counted from zero.
def structural (context problem : Mark) (reason : Reason) : Fault :=
  ⟨toldLine context problem, reason⟩

def message (f : Fault) : Bytes :=
  (match f.line with
  | some line => utf8 "line " ++ Numeral.decimal line ++ utf8 ": "
  | none => []) ++ f.reason.message

end Fault

end StackAsm.Yaml
