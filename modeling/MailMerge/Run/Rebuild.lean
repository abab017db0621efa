import MailMerge.Run.Cell

set_option autoImplicit false

namespace MailMerge.Run

open Markup (Element)

/-- Cells cut into the longest stretches whose neighbours share a key. -/
def stretches (key : Cell → Nat) : List Cell → List (Cell × List Cell)
  | [] => []
  | cell :: rest =>
    match stretches key rest with
    | [] => [(cell, [])]
    | (head, tail) :: others =>
      if key cell = key head then (cell, head :: tail) :: others
      else (cell, []) :: (head, tail) :: others

/-- A run with other text. Text for a run without a text element goes into a new one at its end. -/
def rebuildRun (vocabulary : Vocabulary) (source : Element) (place : Option Nat) (text : Text) :
    Element :=
  let children := source.children.zipIdx.map fun (child, index) =>
    if some index = place then { child.shell with data := text } else child
  let added := if place = none ∧ text ≠ [] then [Element.ofData vocabulary.text text] else []
  { source with children := children ++ added }

/-- The children from one index up to another that are not runs. -/
def otherChildren (vocabulary : Vocabulary) (source : Element) (first last : Nat) : List Element :=
  ((source.children.take last).drop first).filter fun child => !child.isNamed vocabulary.run

/-- The run that a stretch of cells came from, with their text. -/
def rebuildStretch (vocabulary : Vocabulary) (source : Element) (head : Cell) (tail : List Cell) :
    List Element :=
  (source.children[head.origin.run]?).toList.map fun run =>
    rebuildRun vocabulary run head.origin.text (textOf (head :: tail))

/-- The children of a paragraph from the index `next` on, rebuilt from stretches of cells. -/
def rebuildChildren (vocabulary : Vocabulary) (source : Element) (next : Nat) :
    List (Cell × List Cell) → List Element
  | [] => otherChildren vocabulary source next source.children.length
  | (head, tail) :: rest =>
    otherChildren vocabulary source next head.origin.run
      ++ rebuildStretch vocabulary source head tail
      ++ rebuildChildren vocabulary source (head.origin.run + 1) rest

def rebuildParagraph (vocabulary : Vocabulary) (source : Element) (cells : List Cell) : Element :=
  let runs := stretches (·.origin.run) cells
  { source with children := rebuildChildren vocabulary source 0 runs }

/-- A paragraph without its runs. -/
def stripRuns (vocabulary : Vocabulary) (paragraph : Element) : Element :=
  { paragraph with
    children := paragraph.children.filter fun child => !child.isNamed vocabulary.run }

/-- The paragraphs from the number `done` up to `last`, which have no cells left. -/
def strippedParagraphs (vocabulary : Vocabulary) (source : List Element) (done last : Nat) :
    List Element :=
  ((source.take last).drop done).map (stripRuns vocabulary)

/-- The paragraphs behind the first `done` rebuilt ones, up to `count` in all. -/
def rebuildParagraphs (vocabulary : Vocabulary) (source : List Element) (count done : Nat) :
    List (Cell × List Cell) → List Element
  | [] => strippedParagraphs vocabulary source done count
  | (head, tail) :: rest =>
    let index := head.origin.paragraph
    let skipped := strippedParagraphs vocabulary source done index
    let rebuilt := (source[index]?).toList.map fun paragraph =>
      rebuildParagraph vocabulary paragraph (head :: tail)
    skipped ++ rebuilt
      ++ rebuildParagraphs vocabulary source count (done + skipped.length + rebuilt.length) rest

/-- The first `count` elements of a group rebuilt from cells that were made from them. -/
def rebuild (vocabulary : Vocabulary) (source : List Element) (count : Nat) (cells : List Cell) :
    List Element :=
  rebuildParagraphs vocabulary source count 0 (stretches (·.origin.paragraph) cells)

end MailMerge.Run
