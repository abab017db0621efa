import MailMerge.Run.Cell

set_option autoImplicit false

namespace MailMerge.Run

structure Cursor where
  /-- The cells up to the current one, which comes first; none on the anchor. -/
  passed : List Cell
  /-- The cells behind the current one. -/
  ahead : List Cell
  deriving Repr, DecidableEq

namespace Cursor

def ofCells (cells : List Cell) : Cursor := ⟨[], cells⟩

def cells (cursor : Cursor) : List Cell := cursor.passed.reverse ++ cursor.ahead

/-- The number of the current cell, counted from 1; 0 on the anchor. -/
def offset (cursor : Cursor) : Nat := cursor.passed.length

def current? (cursor : Cursor) : Option Cell := cursor.passed.head?

/-- The cell `k` places further; the current one for 0. -/
def cellAhead? (k : Nat) (cursor : Cursor) : Option Cell :=
  match k with
  | 0 => cursor.current?
  | k + 1 => cursor.ahead[k]?

/-- The position `n` cells further, or on the last cell. -/
def forward (n : Nat) (cursor : Cursor) : Cursor :=
  ⟨(cursor.ahead.take n).reverse ++ cursor.passed, cursor.ahead.drop n⟩

def rewind (cursor : Cursor) : Cursor := ofCells cursor.cells

def peek (k : Nat) (cursor : Cursor) : Text := textOf (cursor.ahead.take k)

def removeAhead (n : Nat) (cursor : Cursor) : Cursor :=
  { cursor with ahead := cursor.ahead.drop n }

def insertAfter (cell : Cell) (cursor : Cursor) : Cursor :=
  { cursor with ahead := cell :: cursor.ahead }

/-- The row with cells behind the current one, and the position on the last of them. -/
def pass (cells : List Cell) (cursor : Cursor) : Cursor :=
  { cursor with passed := cells.reverse ++ cursor.passed }

end Cursor

/-- Do cells begin with the characters of a text, one for one? -/
def spells : Text → List Cell → Bool
  | [], _ => true
  | _ :: _, [] => false
  | c :: text, cell :: cells => cell.char == some c && spells text cells

/-- The text in front of the first place where cells spell a delimiter, and the number of cells
there. Cells without a character add no text. -/
def textUntil? (delimiter : Text) : List Cell → Option (Text × Nat)
  | [] => none
  | cell :: rest =>
    if spells delimiter (cell :: rest) then some ([], 0)
    else (textUntil? delimiter rest).map fun (text, count) => (cell.char.toList ++ text, count + 1)

end MailMerge.Run
