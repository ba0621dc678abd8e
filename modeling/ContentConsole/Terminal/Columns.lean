set_option autoImplicit false
set_option relaxedAutoImplicit false

/-!
Columns of a table. Each is as wide as its widest cell, headings included, and rows may be shorter
or longer than the headings. Two spaces stand between columns, and the last cell of a row is not
filled up. A cell can only be filled up to a certain width.
-/
namespace ContentConsole.Terminal

/-- The greater of two widths in each column; a column that one list lacks
has the width of the other. -/
def widest : List Nat → List Nat → List Nat
  | [], ws => ws
  | ws, [] => ws
  | v :: vs, w :: ws => max v w :: widest vs ws

def columnWidths (headings : List String) (rows : List (List String)) : List Nat :=
  rows.foldl (fun widths row => widest widths (row.map String.length)) (headings.map String.length)

/-- Fills a cell up with spaces; one that is too wide stays as it is. -/
def padCell (width : Nat) (cell : String) : String :=
  cell ++ String.ofList (List.replicate (width - cell.length) ' ')

def padCells : List String → List Nat → List String
  | [], _ => []
  | [cell], _ => [cell]
  | cell :: row, widths => padCell (widths.headD 0) cell :: padCells row widths.tail

def padRow (row : List String) (widths : List Nat) : String :=
  "  ".intercalate (padCells row widths)

/-- The greatest width that a cell can be filled up to, as such a width has 16 bits. -/
def maxFill : Nat := 65535

def isFillable (row : List String) (widths : List Nat) : Bool :=
  (widths.take (row.length - 1)).all fun width => width ≤ maxFill

/-- A row as one line of text, if its cells can be filled up. -/
def padRow? (row : List String) (widths : List Nat) : Option String :=
  if isFillable row widths then some (padRow row widths) else none

example : columnWidths ["Key", "Value"] [["title", "Welcome", "yes", "extra"]] =
  [5, 7, 3, 5] := by decide

example : padRow ["e1", "-", "r1"] [7, 6, 8] = "e1       -       r1" := by cbv

end ContentConsole.Terminal
