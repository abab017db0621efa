import Mathlib.Data.List.Basic
import MailMerge.Proofs.Fill.Pieces

set_option autoImplicit false

namespace MailMerge.Run

/-- What moves the position in a row of cells or changes the cells. -/
inductive Op where
  | push (cell : Cell)
  | advance
  | retreat
  | rewind
  | seek (n : Int)
  | removeAhead (n : Nat)
  | insertBefore (cell : Cell)
  | insertAfter (cell : Cell)

/-- What an operation tells: nothing, the cell that it moved onto, or a number of cells. -/
inductive Answer where
  | nothing
  | cell (cell : Option Cell)
  | count (n : Nat)

def runAll {σ : Type} (apply : Op → σ → Answer × σ) : List Op → σ → List Answer × σ
  | [], state => ([], state)
  | op :: ops, state =>
    let (answer, next) := apply op state
    let (answers, final) := runAll apply ops next
    (answer :: answers, final)

theorem textOf_cons (cell : Cell) (cells : List Cell) :
    textOf (cell :: cells) = cell.char.toList ++ textOf cells := by
  cases char : cell.char with
  | none => exact List.filterMap_cons_none char
  | some c => exact List.filterMap_cons_some char

structure Row where
  cells : List Cell
  position : Nat
  within : position ≤ cells.length

namespace Row

def ofCells (cells : List Cell) : Row := ⟨cells, 0, Nat.zero_le _⟩

def passed (row : Row) : List Cell := row.cells.take row.position

def ahead (row : Row) : List Cell := row.cells.drop row.position

theorem passed_append_ahead (row : Row) : row.passed ++ row.ahead = row.cells :=
  List.take_append_drop row.position row.cells

@[simp] theorem length_passed (row : Row) : row.passed.length = row.position := by
  rw [passed, List.length_take, Nat.min_eq_left row.within]

@[simp] theorem length_ahead (row : Row) : row.ahead.length = row.cells.length - row.position :=
  List.length_drop

/-- The cell with a number counted from 1; none for 0, which is the anchor. -/
def cell? (row : Row) : Nat → Option Cell
  | 0 => none
  | number + 1 => row.cells[number]?

def current? (row : Row) : Option Cell := row.cell? row.position

/-- The cell `k` places further; the current one for 0. -/
def cellAhead? (k : Nat) (row : Row) : Option Cell := row.cell? (row.position + k)

def peek (k : Nat) (row : Row) : Text := textOf (row.ahead.take k)

/-- The text of the cells in front of the first place behind the position where a delimiter begins,
and the number of these cells. -/
def textUntil? (delimiter : Text) (row : Row) : Option (Text × Nat) :=
  let begins (count : Nat) : Bool := Fill.Begins Cell.char delimiter (row.ahead.drop count)
  ((List.range row.ahead.length).find? begins).map fun count =>
    (textOf (row.ahead.take count), count)

/-- The position moved by `n` cells, but not in front of the anchor or behind the last cell. -/
def seek (n : Int) (row : Row) : Row :=
  ⟨row.cells, min (row.position + n).toNat row.cells.length, Nat.min_le_right _ _⟩

def rewind (row : Row) : Row := ofCells row.cells

def push (cell : Cell) (row : Row) : Row :=
  ⟨row.cells ++ [cell], row.position, by
    have := row.within
    simp only [List.length_append, List.length_singleton]
    omega⟩

def insertAfter (cell : Cell) (row : Row) : Row :=
  ⟨row.passed ++ cell :: row.ahead, row.position, by simp⟩

/-- The row with a cell in front of the current one; on the anchor the cell becomes the first. -/
def insertBefore (cell : Cell) (row : Row) : Row :=
  if row.position = 0 then row.insertAfter cell
  else
    let number := row.position - 1
    ⟨row.cells.take number ++ cell :: row.cells.drop number, row.position + 1, by
      have := row.within
      simp only [List.length_append, List.length_cons, List.length_take, List.length_drop]
      omega⟩

def removeAhead (n : Nat) (row : Row) : Row :=
  ⟨row.passed ++ row.ahead.drop n, row.position, by simp⟩

/-- What an operation tells about a row, and the row that it leaves. -/
def apply : Op → Row → Answer × Row
  | .push cell, row => (.nothing, row.push cell)
  | .advance, row => (.cell (row.cellAhead? 1), row.seek 1)
  | .retreat, row => (.cell (row.seek (-1)).current?, row.seek (-1))
  | .rewind, row => (.nothing, row.rewind)
  | .seek n, row => (.nothing, row.seek n)
  | .removeAhead n, row => (.count (min n row.ahead.length), row.removeAhead n)
  | .insertBefore cell, row => (.nothing, row.insertBefore cell)
  | .insertAfter cell, row => (.nothing, row.insertAfter cell)

section

variable {row : Row} {cell : Cell}

@[simp] theorem passed_push : (row.push cell).passed = row.passed :=
  List.take_append_of_le_length row.within

@[simp] theorem ahead_push : (row.push cell).ahead = row.ahead ++ [cell] :=
  List.drop_append_of_le_length row.within

@[simp] theorem passed_insertAfter : (row.insertAfter cell).passed = row.passed :=
  List.take_left' row.length_passed

@[simp] theorem ahead_insertAfter : (row.insertAfter cell).ahead = cell :: row.ahead :=
  List.drop_left' row.length_passed

@[simp] theorem passed_removeAhead (n : Nat) : (row.removeAhead n).passed = row.passed :=
  List.take_left' row.length_passed

@[simp] theorem ahead_removeAhead (n : Nat) : (row.removeAhead n).ahead = row.ahead.drop n :=
  List.drop_left' row.length_passed

theorem insertBefore_anchor (anchor : row.passed = []) (cell : Cell) :
    row.insertBefore cell = row.insertAfter cell := by
  have position : row.position = 0 := by rw [← length_passed, anchor, List.length_nil]
  rw [insertBefore, if_pos position]

theorem insertBefore_cell {front : List Cell} {current : Cell}
    (passed : row.passed = front ++ [current]) (cell : Cell) :
    (row.insertBefore cell).passed = front ++ [cell, current] ∧
      (row.insertBefore cell).ahead = row.ahead := by
  have position : row.position = front.length + 1 := by
    rw [← length_passed, passed, List.length_append, List.length_singleton]
  have cells : row.cells = front ++ (current :: row.ahead) := by
    rw [← passed_append_ahead, passed, List.append_assoc, List.singleton_append]
  have inserted : (row.insertBefore cell).cells = front ++ [cell, current] ++ row.ahead := by
    rw [insertBefore, if_neg (by omega)]
    simp only [position, Nat.add_sub_cancel]
    rw [cells, List.take_left, List.drop_left, List.append_assoc]
    rfl
  have moved : (row.insertBefore cell).position = (front ++ [cell, current]).length := by
    rw [insertBefore, if_neg (by omega)]
    change row.position + 1 = _
    rw [position, List.length_append]
    rfl
  rw [Row.passed, Row.ahead, inserted, moved]
  exact ⟨List.take_left, List.drop_left⟩

theorem position_seek (n : Nat) :
    (row.seek n).position = min (row.position + n) row.cells.length := by
  change min (row.position + (n : Int)).toNat _ = _
  rw [← Int.natCast_add, Int.toNat_natCast]

theorem position_seek_neg (n : Nat) : (row.seek (-n)).position = row.position - n := by
  have within := row.within
  change min (row.position + (-(n : Int))).toNat _ = _
  omega

theorem current?_eq : row.current? = row.passed.getLast? := by
  have within := row.within
  rw [current?, passed, List.getLast?_eq_getElem?, List.length_take, Nat.min_eq_left within]
  cases position : row.position with
  | zero => rfl
  | succ last => simp [cell?]

theorem cellAhead?_succ (k : Nat) : row.cellAhead? (k + 1) = row.ahead[k]? := by
  rw [ahead, List.getElem?_drop]
  rfl

/-- The search from the front finds the same as a comparison at each number of cells. -/
theorem textUntil?_eq (delimiter : Text) :
    row.textUntil? delimiter = Run.textUntil? delimiter row.ahead := by
  unfold textUntil?
  induction row.ahead with
  | nil => rfl
  | cons cell rest ih =>
    simp only [Run.textUntil?, List.length_cons, List.range_succ_eq_map, List.find?_cons] at ih ⊢
    by_cases here : Fill.Begins Cell.char delimiter (cell :: rest)
    · have spelt := (Fill.spells_iff delimiter (cell :: rest)).2 here
      simp [here, spelt, textOf]
    · have unspelt := mt (Fill.spells_iff delimiter (cell :: rest)).1 here
      rw [if_neg unspelt, ← ih]
      simp [here, List.find?_map, Function.comp_def, textOf_cons]

end

end Row

end MailMerge.Run
