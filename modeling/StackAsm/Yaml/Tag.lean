import StackAsm.Bytes

set_option autoImplicit false

namespace StackAsm.Yaml

inductive Tag where
  | text
  | integer
  | float
  | boolean
  | null
  | timestamp
  | merge
  | binary
  | sequence
  | mapping
  | custom (name : Bytes)
  deriving DecidableEq, Repr

namespace Tag

def standard : List (String × Tag) :=
  [("str", .text), ("int", .integer), ("float", .float), ("bool", .boolean), ("null", .null),
    ("timestamp", .timestamp), ("merge", .merge), ("binary", .binary), ("seq", .sequence),
    ("map", .mapping)]

def name : Tag → Bytes
  | .text => utf8 "!!str"
  | .integer => utf8 "!!int"
  | .float => utf8 "!!float"
  | .boolean => utf8 "!!bool"
  | .null => utf8 "!!null"
  | .timestamp => utf8 "!!timestamp"
  | .merge => utf8 "!!merge"
  | .binary => utf8 "!!binary"
  | .sequence => utf8 "!!seq"
  | .mapping => utf8 "!!map"
  | .custom name => name

def standardHead : Bytes := utf8 "tag:yaml.org,2002:"

def ofName (written : Bytes) : Tag :=
  let short :=
    if startsWith written standardHead then utf8 "!!" ++ written.drop standardHead.length
    else written
  match standard.find? fun (name, _) => utf8 "!!" ++ utf8 name == short with
  | some (_, tag) => tag
  | none => .custom short

end Tag

end StackAsm.Yaml
