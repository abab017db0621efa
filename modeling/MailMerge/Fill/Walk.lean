import MailMerge.Fill.Pass
import MailMerge.Fill.Report
import MailMerge.Run.Rebuild

/-!
The walk through an element tree that fills its groups of paragraphs. A placeholder never reaches
over the end of a group. An error ends the walk: the groups filled before it stay filled, and the
group it comes from and everything behind it stay as they were.
-/

set_option autoImplicit false

namespace MailMerge.Fill

open Markup (Element)
open Run (Cursor)

/-- Paragraphs of an element that were left alone because of a sibling in front of them. -/
structure Warning where
  container : Text
  skipped : Nat
  deriving Repr, DecidableEq

/-- What a walk through something leaves of it. -/
structure Walked (α : Type) where
  result : α
  report : Report
  warnings : List Warning
  /-- The error that ended the walk, if one did. -/
  failure : Option Error
  deriving Repr, DecidableEq

namespace Walked

variable {α β γ : Type}

def unchanged (result : α) : Walked α := ⟨result, 0, [], none⟩

def map (f : α → β) (walked : Walked α) : Walked β :=
  ⟨f walked.result, walked.report, walked.warnings, walked.failure⟩

/-- The walk through one thing and then another, with their results joined. -/
def join (f : α → β → γ) (first : Walked α) (second : Walked β) : Walked γ :=
  ⟨f first.result second.result, first.report + second.report, first.warnings ++ second.warnings,
    second.failure⟩

end Walked

/-- Goes on with the next thing, unless the walk ended with an error; then the next thing stays as
it is. -/
def followedBy {α β γ : Type} (f : α → β → γ) (first : Walked α) (untouched : β)
    (next : Dialogue (Walked β)) : Dialogue (Walked γ) :=
  match first.failure with
  | some _ => .done (first.map fun result => f result untouched)
  | none => next.bind fun second => .done (first.join f second)

/-- What a walk follows. -/
structure Guide where
  markers : Markers
  vocabulary : Vocabulary
  policy : SiblingPolicy

namespace Guide

/-- Fills a group of paragraphs. Paragraphs without runs are no group, and a group in which nothing
was replaced stays as it was. -/
def fillGroup (guide : Guide) (group : List Element) : Dialogue (Walked (List Element)) :=
  let cells := Run.flatten guide.vocabulary group
  if cells = [] then .done (.unchanged group)
  else (pass guide.markers (Cursor.ofCells cells)).bind fun passed =>
    match passed.outcome with
    | .error error => .done ⟨group, ⟨1, 0, 0, 0⟩, [], some error⟩
    | .ok tally =>
      let filled :=
        if tally.replaced = 0 then group
        else Run.rebuild guide.vocabulary group group.length passed.cursor.cells
      .done ⟨filled, ⟨1, tally.replaced, tally.unresolved, 0⟩, [], none⟩

def isParagraph (guide : Guide) (element : Element) : Bool :=
  Run.isParagraph guide.vocabulary element

/-- The report and the warning about the paragraphs behind the leading ones of an element. -/
def truncated (guide : Guide) (container : Text) (others : List Element) : Walked (List Element) :=
  let skipped := others.countP guide.isParagraph
  let warnings := if skipped = 0 then [] else [⟨container, skipped⟩]
  ⟨others, ⟨0, 0, 0, skipped⟩, warnings, none⟩

/-- Fills the leading paragraphs of an element and leaves its other children alone. -/
def fillLeading (guide : Guide) (container : Text) (children : List Element) :
    Dialogue (Walked (List Element)) :=
  let leading := children.takeWhile guide.isParagraph
  let others := children.dropWhile guide.isParagraph
  (guide.fillGroup leading).bind fun filled =>
    followedBy (· ++ ·) filled others (.done (guide.truncated container others))

mutual

/-- Fills the leading paragraphs of an element whose first child is a paragraph, and searches all
children of any other element. -/
def walkTruncate (guide : Guide) : Element → Dialogue (Walked Element)
  | ⟨name, attributes, data, children, selfClosing⟩ =>
    let leading := match children with
      | [] => false
      | first :: _ => guide.isParagraph first
    let walked :=
      if leading then guide.fillLeading name children else guide.walkTruncateAll children
    walked.bind fun inside =>
      .done (inside.map fun children => ⟨name, attributes, data, children, selfClosing⟩)

def walkTruncateAll (guide : Guide) : List Element → Dialogue (Walked (List Element))
  | [] => .done (.unchanged [])
  | element :: rest =>
    (guide.walkTruncate element).bind fun walked =>
      followedBy List.cons walked rest (guide.walkTruncateAll rest)

end

mutual

/-- Fills every stretch of paragraphs of an element and searches its other children. -/
def walkSplit (guide : Guide) : Element → Dialogue (Walked Element)
  | ⟨name, attributes, data, children, selfClosing⟩ =>
    (guide.walkSplitAll [] children).bind fun inside =>
      .done (inside.map fun children => ⟨name, attributes, data, children, selfClosing⟩)

/-- Walks through elements behind the paragraphs of an unfinished stretch, the last of which comes
first. -/
def walkSplitAll (guide : Guide) (stretch : List Element) :
    List Element → Dialogue (Walked (List Element))
  | [] => guide.fillGroup stretch.reverse
  | element :: rest =>
    if guide.isParagraph element then guide.walkSplitAll (element :: stretch) rest
    else
      (guide.fillGroup stretch.reverse).bind fun filled =>
        followedBy (· ++ ·) filled (element :: rest)
          ((guide.walkSplit element).bind fun walked =>
            followedBy List.cons walked rest (guide.walkSplitAll [] rest))

end

/-- Fills every group of paragraphs in an element and inside it, as the policy says. The element
itself may hold paragraphs. -/
def walk (guide : Guide) (element : Element) : Dialogue (Walked Element) :=
  match guide.policy with
  | .truncate => guide.walkTruncate element
  | .split => guide.walkSplit element

end Guide

end MailMerge.Fill
