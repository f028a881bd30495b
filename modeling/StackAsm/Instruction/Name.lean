import StackAsm.Bytes

set_option autoImplicit false

namespace StackAsm

/-- Names for consecutive numbers from `first` on, and one name for every other number. -/
structure NameTable where
  first : Nat
  names : List Bytes
  other : Bytes

namespace NameTable

def name (t : NameTable) (n : UInt8) : Bytes :=
  if n.toNat < t.first then t.other else t.names.getD (n.toNat - t.first) t.other

def find? (t : NameTable) (name : Bytes) : Option UInt8 :=
  (t.names.idxOf? name).map fun i => UInt8.ofNat (t.first + i)

def arithmetic : NameTable where
  first := 1
  names := ["add", "sub", "mul", "div", "rem", "and", "or", "xor", "lsl", "asr", "lsr"].map utf8
  other := utf8 "arith?"

def unary : NameTable where
  first := 0
  names := ["neg", "not"].map utf8
  other := utf8 "unary?"

def comparison : NameTable where
  first := 0
  names := ["ifeq", "ifne", "iflt", "ifgt", "ifle", "ifge"].map utf8
  other := utf8 "if?"

def zeroTest : NameTable where
  first := 0
  names := ["ifeqz", "ifnez", "ifltz", "ifgez"].map utf8
  other := utf8 "if?z"

def format : NameTable where
  first := 0
  names := ["dec", "hex", "char", "udec"].map utf8
  other := utf8 "fmt?"

theorem find?_name_format :
    ∀ n : Fin 4, format.find? (format.name (UInt8.ofNat n)) = some (UInt8.ofNat n) := by
  decide

end NameTable

end StackAsm
