import StackAsm.Yaml.Fault

set_option autoImplicit false

/-!
The characters of a document. It is encoded in UTF-8 or, if it starts with the mark for it, in
UTF-16, and read in pages of bytes. A page with a fault has no characters: the fault comes up when
the page is turned to, after all that is wrong with the pages before it.
-/

namespace StackAsm.Yaml

structure Pages where
  pages : List (List Char) := []
  fault : Option Reason := none
  deriving DecidableEq, Repr

namespace Encoding

-- What the bytes of a page start with: a character of some bytes, the start of one that goes on in
-- the next page, or neither.
inductive Start where
  | char (c : Char) (size : Nat)
  | broken (reason : Reason)
  | bad (reason : Reason)

def isAllowed (code : Nat) : Bool :=
  code == 0x9 || code == 0xA || code == 0xD || (0x20 ≤ code && code ≤ 0x7E) || code == 0x85 ||
    (0xA0 ≤ code && code ≤ 0xD7FF) || (0xE000 ≤ code && code ≤ 0xFFFD) ||
    (0x10000 ≤ code && code ≤ 0x10FFFF)

def startOfCode (code size : Nat) : Start :=
  if isAllowed code then .char (Char.ofNat code) size else .bad .controlCharacter

def octets? (b : UInt8) : Option Nat :=
  if b < 0x80 then some 1
  else if 0xC0 ≤ b && b < 0xE0 then some 2
  else if 0xE0 ≤ b && b < 0xF0 then some 3
  else if 0xF0 ≤ b && b < 0xF8 then some 4
  else none

def isTrailing (b : UInt8) : Bool :=
  0x80 ≤ b && b < 0xC0

def leadingBits (b : UInt8) (size : Nat) : Nat :=
  match size with
  | 1 => b.toNat
  | 2 => b.toNat % 0x20
  | 3 => b.toNat % 0x10
  | _ => b.toNat % 0x08

def leastOfSize (size : Nat) : Nat :=
  match size with
  | 1 => 0
  | 2 => 0x80
  | 3 => 0x800
  | _ => 0x10000

def startUtf8 (b : UInt8) (bs : Bytes) : Start :=
  match octets? b with
  | none => .bad .invalidLeadingOctet
  | some size =>
    let trailing := bs.take (size - 1)
    if trailing.length < size - 1 then .broken .incompleteOctets
    else if !trailing.all isTrailing then .bad .invalidTrailingOctet
    else
      let code := trailing.foldl (fun code t => code * 0x40 + t.toNat % 0x40) (leadingBits b size)
      if code < leastOfSize size then .bad .overlongOctets
      else if (0xD800 ≤ code && code ≤ 0xDFFF) || 0x10FFFF < code then .bad .invalidCharacter
      else startOfCode code size

def unit (little : Bool) (b0 b1 : UInt8) : Nat :=
  if little then b0.toNat + 0x100 * b1.toNat else b1.toNat + 0x100 * b0.toNat

def startUtf16 (little : Bool) : Bytes → Start
  | b0 :: b1 :: bs =>
    let first := unit little b0 b1
    if 0xDC00 ≤ first && first ≤ 0xDFFF then .bad .unexpectedLowSurrogate
    else if 0xD800 ≤ first && first ≤ 0xDBFF then
      match bs with
      | b2 :: b3 :: _ =>
        let second := unit little b2 b3
        if 0xDC00 ≤ second && second ≤ 0xDFFF then
          startOfCode (0x10000 + (first - 0xD800) * 0x400 + (second - 0xDC00)) 4
        else .bad .expectedLowSurrogate
      | _ => .broken .incompleteSurrogatePair
    else startOfCode first 2
  | _ => .broken .incompleteUnit

end Encoding

inductive Encoding where
  | utf8
  | utf16 (little : Bool)
  deriving DecidableEq, Repr

namespace Encoding

def start (e : Encoding) (b : UInt8) (bs : Bytes) : Start :=
  match e with
  | .utf8 => startUtf8 b bs
  | .utf16 little => startUtf16 little (b :: bs)

inductive PageEnd where
  | whole
  | broken (left : Bytes) (reason : Reason)
  | bad (reason : Reason)

def charsFrom (e : Encoding) : Nat → Bytes → List Char × PageEnd
  | _, [] => ([], .whole)
  | skip + 1, _ :: bs => charsFrom e skip bs
  | 0, b :: bs =>
    match e.start b bs with
    | .char c size =>
      let (cs, left) := charsFrom e (size - 1) bs
      (c :: cs, left)
    | .broken reason => ([], .broken (b :: bs) reason)
    | .bad reason => ([], .bad reason)

def pageSize : Nat := 512

/-- The pages of some bytes, the first of `size` bytes. A character that does not fit in its page
moves to the next one; `fuel` bounds the pages. -/
def pagesFrom (e : Encoding) : Nat → Nat → Bytes → Pages
  | 0, _, _ => {}
  | _, _, [] => {}
  | fuel + 1, size, b :: bs =>
    let rest := (b :: bs).drop size
    match charsFrom e 0 ((b :: bs).take size) with
    | (cs, .whole) =>
      let more := pagesFrom e fuel pageSize rest
      ⟨cs :: more.pages, more.fault⟩
    | (cs, .broken left reason) =>
      if rest = [] then ⟨[cs], some reason⟩
      else
        let more := pagesFrom e fuel pageSize (left ++ rest)
        ⟨cs :: more.pages, more.fault⟩
    | (_, .bad reason) => ⟨[], some reason⟩

def detect (data : Bytes) : Encoding × Nat :=
  if startsWith data [0xFF, 0xFE] then (.utf16 true, 2)
  else if startsWith data [0xFE, 0xFF] then (.utf16 false, 2)
  else if startsWith data [0xEF, 0xBB, 0xBF] then (.utf8, 3)
  else (.utf8, 0)

end Encoding

-- The pages of a document. The mark of its encoding counts to the first page.
def Pages.ofBytes (data : Bytes) : Pages :=
  let (e, mark) := Encoding.detect data
  e.pagesFrom (data.length + 1) (Encoding.pageSize - mark) (data.drop mark)

end StackAsm.Yaml
