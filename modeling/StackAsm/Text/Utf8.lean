import StackAsm.Bytes

set_option autoImplicit false

namespace StackAsm.Utf8

inductive Piece where
  | char (c : Char)
  | stray (b : UInt8)
  deriving DecidableEq, Repr

def Piece.bytes : Piece → Bytes
  | .char c => String.utf8EncodeChar c
  | .stray b => [b]

def replacement : Char := Char.ofNat 0xFFFD

def Piece.shown : Piece → Char
  | .char c => c
  | .stray _ => replacement

/-- The character whose encoding a byte string starts with, if it starts with one. No encoding has
more than four bytes. -/
def firstChar? (bs : Bytes) : Option Char :=
  (bs.take 4).toByteArray.utf8DecodeChar? 0

-- The pieces of a byte string of which the first `skip` bytes are already accounted for.
def piecesFrom : Nat → Bytes → List Piece
  | _, [] => []
  | skip + 1, _ :: bs => piecesFrom skip bs
  | 0, b :: bs =>
    match firstChar? (b :: bs) with
    | some c => .char c :: piecesFrom (c.utf8Size - 1) bs
    | none => .stray b :: piecesFrom 0 bs

def pieces (bs : Bytes) : List Piece :=
  piecesFrom 0 bs

def ofPieces (ps : List Piece) : Bytes :=
  ps.flatMap Piece.bytes

@[simp] theorem pieces_nil : pieces [] = [] := rfl

@[simp] theorem ofPieces_nil : ofPieces [] = [] := rfl

@[simp] theorem ofPieces_cons (p : Piece) (ps : List Piece) :
    ofPieces (p :: ps) = p.bytes ++ ofPieces ps := by
  simp [ofPieces]

@[simp] theorem ofPieces_append (ps qs : List Piece) :
    ofPieces (ps ++ qs) = ofPieces ps ++ ofPieces qs := by
  simp [ofPieces]

theorem firstChar?_append (c : Char) (bs : Bytes) :
    firstChar? (String.utf8EncodeChar c ++ bs) = some c := by
  have short : (String.utf8EncodeChar c).length ≤ 4 := by
    rw [String.length_utf8EncodeChar]
    exact Char.utf8Size_le_four c
  rw [firstChar?, List.take_append, List.take_of_length_le short, List.toByteArray_append]
  exact ByteArray.utf8DecodeChar?_utf8EncodeChar_append

theorem exists_append_of_firstChar? {bs : Bytes} {c : Char} (h : firstChar? bs = some c) :
    ∃ rest, bs = String.utf8EncodeChar c ++ rest := by
  obtain ⟨tail, split⟩ := ByteArray.exists_of_utf8DecodeChar?_eq_some h
  have asList : tail = tail.data.toList.toByteArray := by
    apply ByteArray.ext
    apply Array.toList_inj.1
    rw [List.toList_data_toByteArray]
  rw [asList, ← List.toByteArray_append, List.toByteArray_inj] at split
  exact ⟨tail.data.toList ++ bs.drop 4, by
    rw [← List.append_assoc, ← split, List.take_append_drop]⟩

theorem piecesFrom_length_append (skipped bs : Bytes) :
    piecesFrom skipped.length (skipped ++ bs) = pieces bs := by
  induction skipped with
  | nil => rfl
  | cons b skipped ih => simpa [piecesFrom] using ih

theorem pieces_char_append (c : Char) (bs : Bytes) :
    pieces (String.utf8EncodeChar c ++ bs) = .char c :: pieces bs := by
  have size := String.length_utf8EncodeChar c
  have first := firstChar?_append c bs
  cases encoded : String.utf8EncodeChar c with
  | nil =>
    have positive := Char.utf8Size_pos c
    simp [encoded] at size
    omega
  | cons b more =>
    rw [encoded] at first size
    have skip : c.utf8Size - 1 = more.length := by simp at size; omega
    simp only [List.cons_append] at first
    simp only [pieces, List.cons_append, piecesFrom, first, skip, piecesFrom_length_append]

theorem pieces_stray_cons {b : UInt8} {bs : Bytes} (h : firstChar? (b :: bs) = none) :
    pieces (b :: bs) = .stray b :: pieces bs := by
  simp [pieces, piecesFrom, h]

-- Induction along the pieces of a byte string.
@[elab_as_elim]
theorem induction_pieces {motive : Bytes → Prop} (nil : motive [])
    (char : ∀ c rest, motive rest → motive (String.utf8EncodeChar c ++ rest))
    (stray : ∀ b rest, firstChar? (b :: rest) = none → motive rest → motive (b :: rest))
    (bs : Bytes) : motive bs := by
  induction size : bs.length using Nat.strongRecOn generalizing bs with
  | _ n ih =>
    cases bs with
    | nil => exact nil
    | cons b bs =>
      cases first : firstChar? (b :: bs) with
      | none =>
        have short : bs.length < n := by simp only [List.length_cons] at size; omega
        exact stray b bs first (ih _ short bs rfl)
      | some c =>
        obtain ⟨rest, split⟩ := exists_append_of_firstChar? first
        have short : rest.length < n := by
          have positive := Char.utf8Size_pos c
          rw [split, List.length_append, String.length_utf8EncodeChar] at size
          omega
        rw [split]
        exact char c rest (ih _ short rest rfl)

@[simp] theorem ofPieces_pieces (bs : Bytes) : ofPieces (pieces bs) = bs := by
  induction bs using induction_pieces with
  | nil => rfl
  | char c rest ih => rw [pieces_char_append, ofPieces_cons, ih, Piece.bytes]
  | stray b rest first ih =>
    rw [pieces_stray_cons first, ofPieces_cons, ih]
    rfl

end StackAsm.Utf8
