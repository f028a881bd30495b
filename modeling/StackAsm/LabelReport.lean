import StackAsm.Assembly.Label
import StackAsm.Text.Width

set_option autoImplicit false

namespace StackAsm.LabelReport

open Ascii Utf8

structure Row where
  name : Bytes
  line : Int
  offset : Int
  deriving DecidableEq, Repr

def rowOfLabel (l : Label) : Row :=
  ⟨l.name, l.line, l.offset⟩

def overwrite (line : List Piece) (place : Nat) (p : Piece) : List Piece :=
  line.take place ++ p :: line.drop (place + 1)

-- A carriage return leads back to the start of the line; what follows is written over it.
def overprint (ps : List Piece) : List Piece :=
  (ps.foldl (fun (line, place) p =>
    if p = .char '\r' then (line, 0) else (overwrite line place p, place + 1)) ([], 0)).1

def shownLine (line : Bytes) : Bytes :=
  if line.contains carriageReturn then
    ((overprint (pieces line)).flatMap fun p => String.utf8EncodeChar p.shown)
  else line

-- A carriage return before a line feed is part of the line break.
def unifyBreaks : Bytes → Bytes
  | [] => []
  | [b] => [b]
  | b :: c :: bs =>
    if b = carriageReturn ∧ c = lineFeed then lineFeed :: unifyBreaks bs
    else b :: unifyBreaks (c :: bs)

def linesOf (cell : Bytes) : List Bytes :=
  cell.splitOn lineFeed

def cellOfName (name : Bytes) : Bytes :=
  let spread := name.flatMap fun b => if b = tab then utf8 "    " else [b]
  List.intercalate [lineFeed] ((linesOf (unifyBreaks spread)).map shownLine)

def cells (r : Row) : List Bytes :=
  [cellOfName r.name, Numeral.signed r.line, utf8 "0x" ++ Numeral.signedHexPadded 4 r.offset]

def headings : List String := ["Label", "Line", "Offset"]

-- A field that could be misread stands in quotes, its quotes and commas after a backslash.
def csvField (cell : Bytes) : Bytes :=
  if cell.any fun b => b == doubleQuote || b == comma || b == lineFeed then
    let escaped := cell.flatMap fun b =>
      if b = doubleQuote || b = comma then [backslash, b] else [b]
    utf8 "\"" ++ escaped ++ utf8 "\""
  else cell

def csvLine (fields : List Bytes) : Bytes :=
  List.intercalate [comma] (fields.map csvField) ++ utf8 "\n"

def csv (rows : List Row) : Bytes :=
  (headings.map utf8 :: rows.map cells).flatMap csvLine

inductive Align where
  | left
  | right
  deriving DecidableEq, Repr

def aligns : List Align := [.left, .right, .left]

def blanks (n : Nat) : Bytes :=
  List.replicate n space

-- A line of a cell, filled with blanks to a width. Blanks on the side to be filled count as
-- filling.
def aligned (align : Align) (width : Nat) (line : Bytes) : Bytes :=
  match align with
  | .left =>
    let bare := (line.reverse.dropWhile (· == space)).reverse
    bare ++ blanks (width - Width.columns bare)
  | .right =>
    let bare := line.dropWhile (· == space)
    blanks (width - Width.columns bare) ++ bare

def repeated (n : Nat) (s : String) : Bytes :=
  (List.replicate n (utf8 s)).flatten

def rule (first joint last : String) (widths : List Nat) : Bytes :=
  utf8 first ++ List.intercalate (utf8 joint) (widths.map fun w => repeated (w + 2) "─") ++
    utf8 last ++ utf8 "\n"

def boxLine (parts : List Bytes) : Bytes :=
  (parts.flatMap fun p => utf8 "│ " ++ p ++ utf8 " ") ++ utf8 "│\n"

def boxRow (widths : List Nat) (row : List Bytes) : Bytes :=
  let columns := row.map linesOf
  let height := columns.foldl (fun h lines => max h lines.length) 0
  (List.range height).flatMap fun i =>
    boxLine (List.zipWith (fun (align, width) lines => aligned align width (lines.getD i []))
      (aligns.zip widths) columns)

def boxTitle : Bytes := utf8 "Labels"

def boxHeadings : List Bytes :=
  headings.map fun h => utf8 h.toUpper

def columnWidths (table : List (List Bytes)) : List Nat :=
  table.foldl (fun widths row => List.zipWith (fun w cell => max w (Width.columns cell)) widths row)
    [0, 0, 0]

def box (rows : List Row) : Bytes :=
  let table := boxHeadings :: rows.map cells
  let widths := columnWidths table
  let span := total widths + 3 * (widths.length - 1)
  rule "┌" "─" "┐" widths ++ boxLine [aligned .left span boxTitle] ++ rule "├" "┬" "┤" widths ++
    boxRow widths boxHeadings ++ rule "├" "┼" "┤" widths ++
    (rows.map cells).flatMap (boxRow widths) ++ rule "└" "┴" "┘" widths

def render (terminal : Bool) (rows : List Row) : Bytes :=
  if terminal then box rows else csv rows

end StackAsm.LabelReport
