import StackAsm.Text.Utf8

set_option autoImplicit false

namespace StackAsm

structure ControlSequence where
  text : List Char
  deriving DecidableEq, Repr

namespace ControlSequence

def escape : Char := Char.ofNat 0x1B

def bell : Char := Char.ofNat 0x07

-- The first bracket tells the kind: attributes after `[`, commands after `]`.
def kind? (s : ControlSequence) : Option Char :=
  s.text.find? fun c => c == '[' || c == ']'

def isLink (s : ControlSequence) : Bool :=
  [escape, ']', '8', ';'].isPrefixOf s.text

-- Attributes end with `m`, links with a bell or an escaped backslash, other commands with a
-- backslash.
def hasEnded (s : ControlSequence) : Bool :=
  let last := s.text.getLast?
  if s.isLink then last == some bell || [escape, '\\'].isSuffixOf s.text
  else (s.kind? == some '[' && last == some 'm') || (s.kind? == some ']' && last == some '\\')

def pass (open? : Option ControlSequence) (c : Char) : Option ControlSequence :=
  match open? with
  | none => if c = escape then some ⟨[c]⟩ else none
  | some s =>
    let longer : ControlSequence := ⟨s.text ++ [c]⟩
    if longer.hasEnded then none else some longer

end ControlSequence

end StackAsm
