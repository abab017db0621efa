import MailMerge.Proofs.Markup.Compact
import MailMerge.Proofs.Markup.OneLayout
import Mathlib.Data.List.Flatten

set_option autoImplicit false

namespace MailMerge.Markup

/-- A text without angle brackets that goes from one tag to the next, or to the end. -/
structure Segment where
  text : Text
  /-- Is the tag in front an end tag, or a single tag? -/
  behindEndTag : Bool
  /-- Is the tag behind a start tag? -/
  beforeStartTag : Bool
  deriving Repr, DecidableEq

namespace Segment

/-- Behind an end tag a segment loses the space in front. -/
def trimmed (segment : Segment) : Text :=
  if segment.behindEndTag then segment.text.dropWhile isSpace else segment.text

/-- What is kept of a segment: if only space is left in front of a start tag, nothing. -/
def kept (segment : Segment) : Text :=
  if segment.beforeStartTag && segment.trimmed.all isSpace then [] else segment.trimmed

/-- Nothing is added to a segment, and its order stays. -/
theorem kept_sublist (segment : Segment) : segment.kept.Sublist segment.text := by
  have trimmed : segment.trimmed.Sublist segment.text := by
    unfold trimmed
    split
    · exact List.dropWhile_sublist isSpace
    · exact List.Sublist.refl segment.text
  unfold kept
  split
  · exact List.nil_sublist segment.text
  · exact trimmed

end Segment

/-- The characters of a text that are no space. -/
def nonSpace (text : Text) : Text := text.filter fun c => !isSpace c

theorem nonSpace_append (first second : Text) :
    nonSpace (first ++ second) = nonSpace first ++ nonSpace second := List.filter_append ..

theorem nonSpace_of_blank {text : Text} (blank : Blank text) : nonSpace text = [] := by
  apply List.filter_eq_nil_iff.2
  intro c member
  simp [blank c member]

theorem nonSpace_dropWhile (text : Text) : nonSpace (text.dropWhile isSpace) = nonSpace text := by
  have blank : Blank (text.takeWhile isSpace) := fun c member => List.mem_takeWhile_imp member
  calc nonSpace (text.dropWhile isSpace)
      = nonSpace (text.takeWhile isSpace) ++ nonSpace (text.dropWhile isSpace) := by
        rw [nonSpace_of_blank blank, List.nil_append]
    _ = nonSpace text := by rw [← nonSpace_append, List.takeWhile_append_dropWhile]

/-- Only space is ever lost of a segment. -/
theorem Segment.nonSpace_kept (segment : Segment) :
    nonSpace segment.kept = nonSpace segment.text := by
  have trimmed : nonSpace segment.trimmed = nonSpace segment.text := by
    unfold Segment.trimmed
    split
    · exact nonSpace_dropWhile segment.text
    · rfl
  unfold Segment.kept
  split
  · rename_i dropped
    have blank : Blank segment.trimmed := List.all_eq_true.1 (Bool.and_eq_true_iff.1 dropped).2
    rw [← trimmed, nonSpace_of_blank blank]
    rfl
  · exact trimmed

def Layout.segments (behindEndTag : Bool) : Layout → List Segment
  | nil => []
  | text piece rest => ⟨piece, behindEndTag, rest.beginsElement⟩ :: rest.segments false
  | element _ _ _ _ rest => rest.segments true

theorem Layout.keptData_eq (layout : Layout) (behindEndTag : Bool) :
    layout.keptData behindEndTag = (layout.segments behindEndTag).flatMap Segment.kept := by
  induction layout generalizing behindEndTag with
  | nil => rfl
  | text piece rest ih =>
    rw [keptData, segments, List.flatMap_cons, ← ih]
    rfl
  | element _ _ _ _ rest _ ih => rw [keptData, segments, ih]

/-- An element of a layout, with what is laid out inside of it. -/
structure LaidElement where
  tag : StartTag
  inside : Layout

namespace LaidElement

def segments (laid : LaidElement) : List Segment := laid.inside.segments false

def text (laid : LaidElement) : Text := laid.segments.flatMap Segment.text

/-- What is kept of the text directly inside an element. -/
def data (laid : LaidElement) : Text := laid.segments.flatMap Segment.kept

def element (laid : LaidElement) : Element := .ofTag laid.tag laid.data laid.inside.children

theorem data_sublist (laid : LaidElement) : laid.data.Sublist laid.text :=
  List.Sublist.flatMap_right _ fun segment _ => segment.kept_sublist

theorem nonSpace_data (laid : LaidElement) : nonSpace laid.data = nonSpace laid.text := by
  unfold data text nonSpace
  rw [List.filter_flatMap, List.filter_flatMap]
  exact congrArg (fun keep => laid.segments.flatMap keep) (funext Segment.nonSpace_kept)

end LaidElement

/-- The elements of a layout at every depth, in the order of their start tags. -/
def Layout.elements : Layout → List LaidElement
  | nil => []
  | text _ rest => rest.elements
  | element tag _ inside _ rest => ⟨tag, inside⟩ :: (inside.elements ++ rest.elements)

mutual

/-- An element and all elements inside it, in the order of their start tags. -/
def Element.preorder : Element → List Element
  | ⟨name, attributes, data, children, selfClosing⟩ =>
    ⟨name, attributes, data, children, selfClosing⟩ :: Element.preorderAll children

/-- The elements of a list and all elements inside them. -/
def Element.preorderAll : List Element → List Element
  | [] => []
  | element :: rest => element.preorder ++ Element.preorderAll rest

end

/-- The elements that are read are those that are laid out. -/
theorem Layout.preorderAll_children (layout : Layout) :
    Element.preorderAll layout.children = layout.elements.map LaidElement.element := by
  induction layout with
  | nil => rfl
  | text piece rest ih => exact ih
  | element tag opening inside closing rest insideIh restIh =>
    rw [children, Element.preorderAll, restIh, elements, List.map_cons, List.map_append, ← insideIh,
      keptData_eq]
    rfl

/-- Data is neither lost nor doubled nor moved to another element. Of every document that is read,
each element has the data that is kept of the segments directly inside of it, in their order, and
all that is lost of them is space. -/
theorem data_of_ofBytes {lookahead : Nat} {bytes : List UInt8} {document : Document}
    (success : Document.ofBytes lookahead bytes = .ok document) :
    (∃ layout : DocumentLayout, layout.Readable ∧ Text.bytes layout.written = bytes) ∧
      ∀ layout : DocumentLayout, layout.Readable → Text.bytes layout.written = bytes →
        document.root.preorder = layout.root.elements.map LaidElement.element ∧
          ∀ laid, laid ∈ layout.root.elements →
            laid.data.Sublist laid.text ∧ nonSpace laid.data = nonSpace laid.text := by
  obtain ⟨laid, only⟩ := DocumentLayout.readable_of_ofBytes success
  refine ⟨laid, fun layout readable same => ⟨?_, fun laid _ => ?_⟩⟩
  · obtain ⟨-, read⟩ := only layout readable same
    have elements := layout.root.preorderAll_children
    rw [← elements, read]
    exact (List.append_nil _).symm
  · exact ⟨laid.data_sublist, laid.nonSpace_data⟩

/-- Space is kept in front of the end tags and of the text, and lost behind the end tags. -/
theorem space_kept_in_front_of_end_tag :
    let single : StartTag := ⟨['c'], [], true⟩
    let inner : StartTag := ⟨['b'], [], false⟩
    let tag : StartTag := ⟨['a'], [], false⟩
    let behind := Layout.element single single.written .nil [] (.text [' ']
      (.element single single.written .nil [] (.text ['\n', '3', ' '] .nil)))
    let layout : DocumentLayout := ⟨[' '], tag, tag.written, .text [' ', '1'] (.element inner
      inner.written (.text [' '] .nil) (writtenClosing ['b']) (.text [' ', '2', ' '] behind)),
      writtenClosing ['a'], ['4']⟩
    Document.ofBytes defaultLookahead (Text.bytes layout.written) = .ok layout.document ∧
      layout.document.root.preorder.map Element.data
        = [[' ', '1', '2', ' ', '3', ' '], [' '], [], []] ∧
      ∀ laid, laid ∈ layout.root.elements → nonSpace laid.data = nonSpace laid.text := by
  intro single inner tag behind layout
  have behindValid : behind.Valid :=
    .single (StartTag.startTagText (by decide)) rfl (.text (by decide) (by decide) rfl
      (.single (StartTag.startTagText (by decide)) rfl (.text (by decide) (by decide) rfl .nil)))
  have root : layout.root.Valid :=
    .paired (StartTag.startTagText (by decide)) rfl (.text (by decide) (by decide) rfl
      (.paired (StartTag.startTagText (by decide)) rfl (.text (by decide) (by decide) rfl .nil)
        (endTagText_written (by decide)) (.text (by decide) (by decide) rfl behindValid)))
      (endTagText_written (by decide)) .nil
  have readable : layout.Readable := .closed ⟨by decide, root⟩
  have success : Document.ofBytes defaultLookahead (Text.bytes layout.written)
      = .ok layout.document := by
    rw [ofBytes_bytes]
    exact readable.ofText_eq_ok (by decide)
  obtain ⟨elements, kept⟩ := (data_of_ofBytes success).2 layout readable rfl
  refine ⟨success, ?_, fun laid member => (kept laid member).2⟩
  rw [elements]
  decide

end MailMerge.Markup
