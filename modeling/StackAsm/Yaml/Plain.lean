import StackAsm.Yaml.Quoted

set_option autoImplicit false

namespace StackAsm.Yaml

def isFlowMark (c : Char) : Bool :=
  c == ',' || c == '?' || c == '[' || c == ']' || c == '\x7b' || c == '\x7d'

structure PlainScalar where
  text : Bytes
  stop : Mark
  broken : Bool

namespace Reading

def plainRun (inFlow : Bool) : Reading Bytes := do
  let chars ← repeated
    (fun chars => do
      let c ← peek 0
      if isBlankOrEnd c || (c == ':' && isBlankOrEnd (← peek 1)) || (inFlow && isFlowMark c) then
        return .inr chars
      else
        skip
        ensure 2
        return .inl (c :: chars))
    id []
  return chars.reverse.flatMap charBytes

def plain (inFlow : Bool) (floor : Nat) : Reading PlainScalar := do
  let start ← mark
  let (parts, stop, g) ← repeated
    (fun (parts, stop, g) => do
      ensure 4
      if ← atDocumentMark then return .inr (parts, stop, g)
      else if (← peek 0) == '#' then return .inr (parts, stop, g)
      else
        let run ← plainRun inFlow
        let (parts, stop, g) ←
          if run == [] then pure (parts, stop, g)
          else pure (run :: g.text :: parts, ← mark, ({} : Gap))
        let c ← peek 0
        if !(isBlank c || isBreak c) then return .inr (parts, stop, g)
        else
          let g ← gap start floor g
          if !inFlow && (← mark).column < floor then return .inr (parts, stop, g)
          else return .inl (parts, stop, g))
    id (([] : List Bytes), start, ({} : Gap))
  return ⟨parts.reverse.flatten, stop, g.broken⟩

end Reading

end StackAsm.Yaml
