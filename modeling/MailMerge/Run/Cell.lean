import MailMerge.Markup.Element
import MailMerge.Options

set_option autoImplicit false

namespace MailMerge.Run

open Markup (Element)

/-- Where a cell came from, by positions in its group of paragraphs. -/
structure Origin where
  /-- The index of the paragraph in the group. -/
  paragraph : Nat
  /-- The index of the run among the paragraph's children. -/
  run : Nat
  /-- The index of the text element among the run's children. -/
  text : Option Nat
  deriving Repr, DecidableEq

/-- A character of a run's text, or a run without text, which has no character. -/
structure Cell where
  char : Option Char
  origin : Origin
  /-- Is this the first character of its run, with nothing but properties in front of the text? -/
  opensRun : Bool
  /-- Is this the last character of its run, with nothing behind the text? -/
  closesRun : Bool
  deriving Repr, DecidableEq

def Cell.ofChar (char : Option Char) (origin : Origin) : Cell := ⟨char, origin, false, false⟩

def Cell.inherit (template : Cell) (char : Char) : Cell := Cell.ofChar (some char) template.origin

def Cell.isEmptyRun (cell : Cell) : Bool := cell.char.isNone

def textOf (cells : List Cell) : Text := cells.filterMap Cell.char

def cellsOfText (origin : Origin) (opens closes : Bool) : Text → List Cell
  | [] => []
  | [c] => [⟨some c, origin, opens, closes⟩]
  | c :: rest => ⟨some c, origin, opens, false⟩ :: cellsOfText origin false closes rest

/-- The data of the first text element of a run. -/
def runText (vocabulary : Vocabulary) (run : Element) : Text :=
  ((run.child? vocabulary.text).map (·.data)).getD []

/-- The cells of a run: its text, or one cell for the run as a whole. -/
def cellsOfRun (vocabulary : Vocabulary) (paragraph index : Nat) (run : Element) : List Cell :=
  let place := run.childIndex? vocabulary.text
  let origin : Origin := ⟨paragraph, index, place⟩
  match runText vocabulary run with
  | [] => [Cell.ofChar none origin]
  | text =>
    let before := run.children.take (place.getD 0)
    let opens := before.all (·.isNamed vocabulary.properties)
    let closes := before.length + 1 = run.children.length
    cellsOfText origin opens closes text

def cellsOfParagraph (vocabulary : Vocabulary) (index : Nat) (paragraph : Element) : List Cell :=
  paragraph.children.zipIdx.flatMap fun (child, run) =>
    if child.isNamed vocabulary.run then cellsOfRun vocabulary index run child else []

def isParagraph (vocabulary : Vocabulary) (element : Element) : Bool :=
  element.isNamed vocabulary.paragraph

def leadingParagraphs (vocabulary : Vocabulary) (elements : List Element) : List Element :=
  elements.takeWhile (isParagraph vocabulary)

/-- The cells of the paragraphs at the front of a list of elements. -/
def flatten (vocabulary : Vocabulary) (elements : List Element) : List Cell :=
  (leadingParagraphs vocabulary elements).zipIdx.flatMap fun (paragraph, index) =>
    cellsOfParagraph vocabulary index paragraph

end MailMerge.Run
