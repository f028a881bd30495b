set_option autoImplicit false

namespace StackAsm.Ascii

def tab : UInt8 := 0x09
def lineFeed : UInt8 := 0x0A
def carriageReturn : UInt8 := 0x0D
def space : UInt8 := 0x20
def doubleQuote : UInt8 := 0x22
def numberSign : UInt8 := 0x23
def plus : UInt8 := 0x2B
def comma : UInt8 := 0x2C
def hyphen : UInt8 := 0x2D
def point : UInt8 := 0x2E
def slash : UInt8 := 0x2F
def zero : UInt8 := 0x30
def colon : UInt8 := 0x3A
def equals : UInt8 := 0x3D
def backslash : UInt8 := 0x5C
def underscore : UInt8 := 0x5F
def letterN : UInt8 := 0x6E

end StackAsm.Ascii
