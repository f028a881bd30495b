import StackAsm.Yaml.Scalar

set_option autoImplicit false

namespace StackAsm.Yaml

inductive Node where
  | scalar (line : Nat) (tag : Tag) (value : Bytes)
  | sequence (line : Nat) (tag : Tag) (items : List Node)
  | mapping (line : Nat) (tag : Tag) (entries : List (Node × Node))
  -- Stands for the anchored node of a number; `index` is where it stands itself.
  | reference (line index : Nat) (name : Bytes) (number : Nat)

inductive NodeKind where
  | scalar
  | sequence
  | mapping
  | reference
  deriving DecidableEq, Repr

namespace Node

def kind : Node → NodeKind
  | .scalar .. => .scalar
  | .sequence .. => .sequence
  | .mapping .. => .mapping
  | .reference .. => .reference

def line : Node → Nat
  | .scalar line .. => line
  | .sequence line .. => line
  | .mapping line .. => line
  | .reference line .. => line

def written : Node → Bytes
  | .scalar _ _ value => value
  | .reference _ _ name _ => name
  | _ => []

def mergeMark : Bytes := utf8 "<<"

def isMerge : Node → Bool
  | .scalar _ tag value => tag == .merge && value == mergeMark
  | _ => false

end Node

structure Document where
  root : Node
  anchored : List (Nat × Node)
  -- The bytes of its text. Nodes nest less deep, and there are fewer aliases.
  size : Nat

def Document.follow (d : Document) (n : Node) : Node :=
  match n with
  | .reference _ _ _ number => (d.anchored.lookup number).getD n
  | _ => n

end StackAsm.Yaml
