import StackAsm.Failure

set_option autoImplicit false

namespace StackAsm

structure Input where
  data : Bytes
  failure : Option Cause

namespace Input

def ofBytes (data : Bytes) : Input :=
  ⟨data, none⟩

def failingAfter (count : Nat) (cause : Cause) (data : Bytes) : Input :=
  ⟨data.take count, some cause⟩

end Input

end StackAsm
