import MailMerge.Fill.Dialogue
import MailMerge.Markup.Escape
import MailMerge.Run.Cursor
import MailMerge.Text.Blank

/-!
The pass that fills the placeholders of one row of cells. A placeholder goes from an opening
delimiter to the first closing one behind it, over any number of runs. Its text without the blanks
at both ends is the path that is asked for. A value takes the placeholder's place and is never
searched; a placeholder without a value stays.
-/

set_option autoImplicit false

namespace MailMerge.Fill

open Run (Cell Cursor)

/-- How many placeholders got a value and how many did not. -/
structure Tally where
  replaced : Nat
  unresolved : Nat
  deriving Repr, DecidableEq

/-- What a pass leaves: its cells, which a failure does not undo, and its counts or the failure. -/
structure Passed where
  cursor : Cursor
  outcome : Except Error Tally

/-- The number of cells that are quoted behind an opening delimiter that is never closed. -/
def excerptLength : Nat := 32

/-- The first position behind the cells `passed` where the text of the next cells is the opening
delimiter. -/
def seekOpening (opening : Text) (passed : List Cell) : List Cell → Option Cursor
  | [] => none
  | cell :: rest =>
    let here : Cursor := ⟨passed, cell :: rest⟩
    if here.peek opening.length = opening then some here
    else seekOpening opening (cell :: passed) rest

/-- Can the value of a placeholder that begins with `first` take its format from this cell? It has
to hold text of the same paragraph. -/
def isUsable (first cell : Cell) : Bool :=
  cell.char.isSome && cell.origin.paragraph == first.origin.paragraph

/-- Does the cell behind a placeholder touch the placeholder's last cell, with nothing in between
that a value must not jump over? -/
def touchesBehind (last cell : Cell) : Bool :=
  cell.origin == last.origin || (cell.opensRun && last.closesRun)

/-- Does the cell in front of a placeholder touch the placeholder's first cell? -/
def touchesBefore (first cell : Cell) : Bool :=
  cell.origin == first.origin || (cell.closesRun && first.opensRun)

/-- The cell whose origin the value of a placeholder takes: the cell behind its `span` cells if it
can, else the cell in front of them if that can, else their own first one. -/
def template? (span : Nat) (cursor : Cursor) : Option Cell := do
  let first ← cursor.cellAhead? 1
  let last ← cursor.cellAhead? span
  let behind := (cursor.cellAhead? (span + 1)).filter fun cell =>
    isUsable first cell && touchesBehind last cell
  let before := cursor.current?.filter fun cell =>
    isUsable first cell && touchesBefore first cell
  return (behind <|> before).getD first

def valueCells (template : Cell) (value : Text) : List Cell :=
  (Markup.escape value).map template.inherit

theorem length_seekOpening_le {opening : Text} {passed ahead : List Cell} {found : Cursor}
    (success : seekOpening opening passed ahead = some found) :
    found.ahead.length ≤ ahead.length := by
  induction ahead generalizing passed with
  | nil => simp [seekOpening] at success
  | cons cell rest ih =>
    simp only [seekOpening] at success
    split at success
    · simp only [Option.some.injEq] at success
      exact Nat.le_of_eq (congrArg (fun cursor => cursor.ahead.length) success.symm)
    · exact Nat.le_succ_of_le (ih success)

theorem peek_seekOpening {opening : Text} {passed ahead : List Cell} {found : Cursor}
    (success : seekOpening opening passed ahead = some found) :
    found.peek opening.length = opening := by
  induction ahead generalizing passed with
  | nil => simp [seekOpening] at success
  | cons cell rest ih =>
    simp only [seekOpening] at success
    split at success
    · rename_i spelt
      simp only [Option.some.injEq] at success
      rw [← success]
      exact spelt
    · exact ih success

/-- Every placeholder takes at least one of the cells ahead. -/
theorem length_drop_found_lt {opening : Text} {passed ahead : List Cell} {found : Cursor}
    (nonempty : opening ≠ [])
    (success : seekOpening opening passed ahead = some found) (more : Nat) :
    (found.ahead.drop (opening.length + more)).length < ahead.length := by
  have bound := length_seekOpening_le success
  have spelt := peek_seekOpening success
  have positive := List.length_pos_iff.2 nonempty
  have filled : found.ahead ≠ [] := by
    intro empty
    rw [Cursor.peek, empty] at spelt
    simp [Run.textOf] at spelt
    exact nonempty spelt
  have available := List.length_pos_iff.2 filled
  rw [List.length_drop]
  omega

def passFrom (markers : Markers) (tally : Tally) (cursor : Cursor) : Dialogue Passed :=
  match _found : seekOpening markers.opening cursor.passed cursor.ahead with
  | none => .done ⟨cursor.forward cursor.ahead.length, .ok tally⟩
  | some start =>
    let inside := start.forward markers.opening.length
    match Run.textUntil? markers.closing inside.ahead with
    | none =>
      let offset := inside.offset + 1 - markers.opening.length
      let excerpt := markers.opening ++ inside.peek excerptLength
      .done ⟨inside, .error (.unterminatedPlaceholder offset excerpt)⟩
    | some (text, count) =>
      .ask (Text.trim text) fun answer =>
        match answer with
        | none =>
          passFrom markers { tally with unresolved := tally.unresolved + 1 }
            (inside.forward (count + markers.closing.length))
        | some value =>
          let span := markers.opening.length + count + markers.closing.length
          match template? span start with
          | none => .done ⟨start, .ok tally⟩
          | some template =>
            passFrom markers { tally with replaced := tally.replaced + 1 }
              ((start.removeAhead span).pass (valueCells template value))
termination_by cursor.ahead.length
decreasing_by
  · have shorter := length_drop_found_lt markers.opening_ne _found (count + markers.closing.length)
    simpa [Cursor.forward, List.drop_drop, Nat.add_assoc] using shorter
  · have shorter := length_drop_found_lt markers.opening_ne _found (count + markers.closing.length)
    simpa [Cursor.removeAhead, Cursor.pass, Nat.add_assoc] using shorter

/-- Fills the placeholders of a row of cells, from the anchor on. -/
def pass (markers : Markers) (cursor : Cursor) : Dialogue Passed :=
  passFrom markers ⟨0, 0⟩ cursor.rewind

end MailMerge.Fill
