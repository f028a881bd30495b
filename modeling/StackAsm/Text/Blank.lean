import StackAsm.Text.Utf8

set_option autoImplicit false

namespace StackAsm

-- The code points with the property `White_Space`.
def blankRanges : List (Nat × Nat) :=
  [(0x9, 0xD), (0x20, 0x20), (0x85, 0x85), (0xA0, 0xA0), (0x1680, 0x1680), (0x2000, 0x200A),
    (0x2028, 0x2029), (0x202F, 0x202F), (0x205F, 0x205F), (0x3000, 0x3000)]

def isBlank (c : Char) : Bool :=
  blankRanges.any fun (lo, hi) => lo ≤ c.toNat && c.toNat ≤ hi

-- A stray byte is never white space.
def Utf8.Piece.isBlank : Utf8.Piece → Bool
  | .char c => StackAsm.isBlank c
  | .stray _ => false

def strip {α : Type} (p : α → Bool) (xs : List α) : List α :=
  ((xs.dropWhile p).reverse.dropWhile p).reverse

def trim (bs : Bytes) : Bytes :=
  Utf8.ofPieces (strip Utf8.Piece.isBlank (Utf8.pieces bs))

def tokens (bs : Bytes) : List Bytes :=
  (((Utf8.pieces bs).splitOnP Utf8.Piece.isBlank).filter (· ≠ [])).map Utf8.ofPieces

end StackAsm
