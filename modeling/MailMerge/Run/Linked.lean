import MailMerge.Run.Cursor

/-!
A row of cells with a position, kept as slots that link to each other. Inserting and removing at the
position change a few links and move no cell; a removed cell keeps its slot, to which nothing links.
-/

set_option autoImplicit false

namespace MailMerge.Run

/-- A cell with the slots in front of it and behind it. -/
structure Slot where
  cell : Cell
  /-- The slot in front; none for the first one. -/
  previous : Option Nat
  /-- The slot behind; none for the last one. -/
  next : Option Nat
  deriving Repr, DecidableEq

/-- Linked slots with a position, which is none on the anchor. -/
structure Linked where
  slots : Array Slot
  first : Option Nat
  last : Option Nat
  current : Option Nat
  /-- The number of cells in the row. -/
  length : Nat
  deriving Repr, DecidableEq

namespace Linked

def empty : Linked := ⟨#[], none, none, none, 0⟩

def cellAt? (row : Linked) (index : Nat) : Option Cell := (row.slots[index]?).map (·.cell)

/-- The slot behind a place, where none is the anchor. -/
def nextOf (row : Linked) : Option Nat → Option Nat
  | none => row.first
  | some index => (row.slots[index]?).bind (·.next)

def previousOf (row : Linked) : Option Nat → Option Nat
  | none => none
  | some index => (row.slots[index]?).bind (·.previous)

def linkNext (place next : Option Nat) (row : Linked) : Linked :=
  match place with
  | none => { row with first := next }
  | some index =>
    { row with slots := row.slots.modify index fun slot => { slot with next := next } }

/-- The row with another slot in front of a place, where none is the end of the row. -/
def linkPrevious (place previous : Option Nat) (row : Linked) : Linked :=
  match place with
  | none => { row with last := previous }
  | some index =>
    { row with slots := row.slots.modify index fun slot => { slot with previous := previous } }

/-- The row with a new slot between two places that are next to each other. -/
def insertBetween (cell : Cell) (previous next : Option Nat) (row : Linked) : Linked :=
  let index := row.slots.size
  let grown := { row with slots := row.slots.push ⟨cell, previous, next⟩, length := row.length + 1 }
  (grown.linkNext previous (some index)).linkPrevious next (some index)

def push (cell : Cell) (row : Linked) : Linked := row.insertBetween cell row.last none

def insertAfter (cell : Cell) (row : Linked) : Linked :=
  row.insertBetween cell row.current (row.nextOf row.current)

/-- The row with a cell in front of the current one; on the anchor the cell becomes the first. -/
def insertBefore (cell : Cell) (row : Linked) : Linked :=
  match row.current with
  | none => row.insertAfter cell
  | some index => row.insertBetween cell (row.previousOf (some index)) (some index)

def current? (row : Linked) : Option Cell := row.current.bind row.cellAt?

def rewind (row : Linked) : Linked := { row with current := none }

def advance? (row : Linked) : Option Linked :=
  (row.nextOf row.current).map fun index => { row with current := some index }

/-- The position one cell back, unless it is on the anchor. -/
def retreat (row : Linked) : Linked := { row with current := row.previousOf row.current }

/-- The place `n` cells behind a place, or the last one, and how many cells lie between. -/
def walk (row : Linked) : Nat → Option Nat → Option Nat × Nat
  | 0, place => (place, 0)
  | n + 1, place =>
    match row.nextOf place with
    | none => (place, 0)
    | some index =>
      let (final, count) := row.walk n (some index)
      (final, count + 1)

/-- The place `n` cells in front of a place, or the anchor. -/
def walkBack (row : Linked) : Nat → Option Nat → Option Nat
  | 0, place => place
  | _ + 1, none => none
  | n + 1, some index => row.walkBack n (row.previousOf (some index))

/-- The position moved forward, or back for a negative number, and stopped at both ends. -/
def seek (n : Int) (row : Linked) : Linked :=
  match n with
  | .ofNat n => { row with current := (row.walk n row.current).1 }
  | .negSucc n => { row with current := row.walkBack (n + 1) row.current }

def cellAhead? (k : Nat) (row : Linked) : Option Cell :=
  let (place, count) := row.walk k row.current
  if count = k then place.bind row.cellAt? else none

def textFrom (row : Linked) : Nat → Option Nat → Text
  | 0, _ => []
  | k + 1, place =>
    match row.nextOf place with
    | none => []
    | some index => ((row.cellAt? index).bind Cell.char).toList ++ row.textFrom k (some index)

def peek (k : Nat) (row : Linked) : Text := row.textFrom k row.current

def spellsAt (row : Linked) : Text → Option Nat → Bool
  | [], _ => true
  | _ :: _, none => false
  | c :: text, some index =>
    (row.cellAt? index).bind Cell.char == some c && row.spellsAt text (row.nextOf (some index))

/-- The text and the number of cells in front of the first place behind `place` where the cells
spell a delimiter, looked for in at most `fuel` cells. -/
def textUntilFrom? (row : Linked) (delimiter : Text) : Nat → Option Nat → Option (Text × Nat)
  | 0, _ => none
  | fuel + 1, place =>
    match row.nextOf place with
    | none => none
    | some index =>
      if row.spellsAt delimiter (some index) then some ([], 0)
      else (row.textUntilFrom? delimiter fuel (some index)).map fun (text, count) =>
        (((row.cellAt? index).bind Cell.char).toList ++ text, count + 1)

/-- The text and the number of cells between the position and the next occurrence of a delimiter. -/
def textUntil? (delimiter : Text) (row : Linked) : Option (Text × Nat) :=
  row.textUntilFrom? delimiter row.slots.size row.current

/-- The row without up to `n` cells behind the position, and how many were removed. -/
def removeAhead (n : Nat) (row : Linked) : Nat × Linked :=
  let (final, count) := row.walk n row.current
  if count = 0 then (0, row)
  else
    let after := row.nextOf final
    let linked := (row.linkNext row.current after).linkPrevious after row.current
    (count, { linked with length := linked.length - count })

/-- The number of cells from a place back to the first one, counted in at most `fuel` cells. -/
def depth (row : Linked) : Nat → Option Nat → Nat
  | 0, _ => 0
  | _ + 1, none => 0
  | fuel + 1, some index => row.depth fuel (row.previousOf (some index)) + 1

/-- The number of the current cell, counted from 1; 0 on the anchor. -/
def offset (row : Linked) : Nat := row.depth row.slots.size row.current

/-- The cells behind a place, at most `fuel` of them. -/
def cellsFrom (row : Linked) : Nat → Option Nat → List Cell
  | 0, _ => []
  | fuel + 1, place =>
    match row.nextOf place with
    | none => []
    | some index => (row.cellAt? index).toList ++ row.cellsFrom fuel (some index)

def cells (row : Linked) : List Cell := row.cellsFrom row.slots.size none

def text (row : Linked) : Text := textOf row.cells

def ofCells (cells : List Cell) : Linked := cells.foldl (fun row cell => row.push cell) empty

def toCursor (row : Linked) : Cursor := (Cursor.ofCells row.cells).forward row.offset

def ofCursor (cursor : Cursor) : Linked := (ofCells cursor.cells).seek cursor.offset

end Linked

end MailMerge.Run
