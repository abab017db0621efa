import MailMerge.Proofs.Markup.Layout

set_option autoImplicit false

namespace MailMerge.Markup

namespace Layout

/-- No space that reading would drop: tags are written without it, data behind an end tag does not
begin with space, and data in front of a start tag is more than space. -/
def Compact (behindTag : Bool) : Layout → Prop
  | nil => True
  | text piece rest =>
    (behindTag = true → Stops isSpace piece) ∧ (rest.beginsElement = true → ¬ Blank piece) ∧
      rest.Compact false
  | element tag opening inside closing rest =>
    opening = tag.written ∧ (tag.selfClosing = false → closing = writtenClosing tag.name) ∧
      inside.Compact false ∧ rest.Compact true

instance decideCompact : (behindTag : Bool) → (layout : Layout) →
    Decidable (layout.Compact behindTag)
  | _, nil => isTrue trivial
  | behindTag, text piece rest =>
    have := decideCompact false rest
    inferInstanceAs (Decidable ((behindTag = true → Stops isSpace piece) ∧
      (rest.beginsElement = true → ¬ Blank piece) ∧ rest.Compact false))
  | _, element tag opening inside closing rest =>
    have := decideCompact false inside
    have := decideCompact true rest
    inferInstanceAs (Decidable (opening = tag.written ∧
      (tag.selfClosing = false → closing = writtenClosing tag.name) ∧ inside.Compact false ∧
        rest.Compact true))

/-- All data of the pieces, but for those inside of elements. -/
def data : Layout → Text
  | nil => []
  | text piece rest => piece ++ rest.data
  | element _ _ _ _ rest => rest.data

/-- The data stands in front of the first element, and so it does inside of each element. -/
def DataFirst : Layout → Prop
  | nil => True
  | text _ rest => rest.DataFirst
  | element _ _ inside _ rest => inside.DataFirst ∧ rest.data = [] ∧ rest.DataFirst

instance decideDataFirst : (layout : Layout) → Decidable layout.DataFirst
  | nil => isTrue trivial
  | text _ rest => decideDataFirst rest
  | element _ _ inside _ rest =>
    have := decideDataFirst inside
    have := decideDataFirst rest
    inferInstanceAs (Decidable (inside.DataFirst ∧ rest.data = [] ∧ rest.DataFirst))

/-- The data and behind it the elements, as they are written when they are read. -/
def rewritten (layout : Layout) : Text := layout.data ++ Element.writtenAll layout.children

theorem keptPiece_compact {behindTag beforeStart : Bool} {piece : Text}
    (begins : behindTag = true → Stops isSpace piece)
    (filled : beforeStart = true → ¬ Blank piece) :
    keptPiece behindTag beforeStart piece = piece := by
  have apart : Blank piece → beforeStart = false := fun blank =>
    Bool.eq_false_iff.2 fun before => filled before blank
  cases behindTag with
  | false => exact keptPiece_of_filled apart
  | true =>
    have left : piece.dropWhile isSpace = piece := dropWhile_append blank_nil (begins rfl)
    rw [keptPiece_behind, left]
    exact keptPiece_of_filled apart

/-- Compact data is kept. -/
theorem Compact.keptData_eq {behindTag : Bool} {layout : Layout}
    (compact : layout.Compact behindTag) : layout.keptData behindTag = layout.data := by
  induction layout generalizing behindTag with
  | nil => rfl
  | text piece rest ih =>
    obtain ⟨begins, filled, others⟩ := compact
    rw [keptData, data, keptPiece_compact begins filled, ih others]
  | element tag opening inside closing rest _ ih => exact ih compact.2.2.2

section

variable {tag : StartTag} {opening closing : Text} {inside rest : Layout} {behindTag : Bool}
  (valid : (element tag opening inside closing rest).Valid)

variable (compact : (element tag opening inside closing rest).Compact behindTag)
include valid compact

/-- An element is written as its tags with what is inside of it between them. -/
theorem written_ofTag : (Element.ofTag tag (inside.keptData false) inside.children).written
    = opening ++ (inside.rewritten ++ closing) := by
  obtain ⟨opened, closed, content, _⟩ := compact
  rw [content.keptData_eq, opened, Element.written_eq, Element.startTag, Element.writtenInside,
    StartTag.written, rewritten]
  cases valid with
  | single opens single => simp [Element.ofTag, Element.isSingle, single, data, children,
      Element.writtenAll]
  | paired opens unclosed => simp [Element.ofTag, Element.isSingle, unclosed, closed unclosed]

/-- Data behind an element comes in front of it. -/
theorem rewritten_element : (element tag opening inside closing rest).rewritten
    = rest.data
      ++ (opening ++ (inside.rewritten ++ closing) ++ Element.writtenAll rest.children) := by
  rw [← written_ofTag valid compact]
  rfl

end

theorem rewritten_text (piece : Text) (rest : Layout) :
    (text piece rest).rewritten = piece ++ rest.rewritten := List.append_assoc _ _ _

theorem length_rewritten {behindTag : Bool} {layout : Layout} (valid : layout.Valid)
    (compact : layout.Compact behindTag) : layout.rewritten.length = layout.written.length := by
  induction layout generalizing behindTag with
  | nil => rfl
  | text piece rest ih =>
    cases valid with
    | text filled plain whole others =>
      rw [rewritten_text, written, List.length_append, List.length_append, ih others compact.2.2]
  | element tag opening inside closing rest insideIh restIh =>
    obtain ⟨content, others⟩ := valid.parts
    have own := insideIh content compact.2.2.1
    have behind := restIh others compact.2.2.2
    rw [rewritten, List.length_append] at behind
    rw [rewritten_element valid compact, written]
    simp only [List.length_append]
    omega

/-- A piece of data does not begin with a bracket. -/
theorem Valid.ne_bracket {layout : Layout} (valid : layout.Valid) {c : Char}
    (member : c ∈ layout.data) : c ≠ '<' := by
  induction layout with
  | nil => cases member
  | text piece rest ih =>
    cases valid with
    | text filled plain whole others =>
      rcases List.mem_append.1 member with here | later
      · exact fun same => plain (same ▸ here)
      · exact ih others later
  | element tag opening inside closing rest _ ih => exact ih valid.parts.2 member

theorem rewritten_eq_iff {behindTag : Bool} {layout : Layout} (valid : layout.Valid)
    (compact : layout.Compact behindTag) :
    layout.rewritten = layout.written ↔ layout.DataFirst := by
  induction layout generalizing behindTag with
  | nil => exact ⟨fun _ => trivial, fun _ => rfl⟩
  | text piece rest ih =>
    cases valid with
    | text filled plain whole others =>
      rw [rewritten_text, written, List.append_cancel_left_eq, ih others compact.2.2]
      rfl
  | element tag opening inside closing rest insideIh restIh =>
    obtain ⟨content, others⟩ := valid.parts
    have own := insideIh content compact.2.2.1
    have behind := restIh others compact.2.2.2
    rw [rewritten_element valid compact, written, DataFirst, ← own, ← behind]
    by_cases first : rest.data = []
    · have others : rest.rewritten = Element.writtenAll rest.children := by
        rw [rewritten, first, List.nil_append]
      have length := length_rewritten content compact.2.2.1
      rw [first, others, List.nil_append, List.append_assoc, List.append_assoc,
        List.append_cancel_left_eq]
      constructor
      · intro same
        obtain ⟨ownSame, tailSame⟩ := List.append_inj same length
        exact ⟨ownSame, rfl, List.append_cancel_left tailSame⟩
      · rintro ⟨ownSame, _, tailSame⟩
        rw [ownSame, tailSame]
    · -- The first character of the data behind the element would be the bracket of its start tag.
      refine ⟨fun same => ?_, fun both => absurd both.2.1 first⟩
      obtain ⟨c, others, cut⟩ := List.exists_cons_of_ne_nil first
      obtain ⟨name, opened⟩ : ∃ name, opening = '<' :: name := ⟨_, compact.1⟩
      rw [cut, opened] at same
      have bracket : c = '<' := (List.cons.inj same).1
      exact absurd bracket (valid.parts.2.ne_bracket (by simp [cut]))

end Layout

namespace DocumentLayout

/-- A compact document that is laid out is read, and it is written as the same bytes exactly if the
data of each element stands in front of its first child. -/
theorem toBytes_eq_iff {layout : DocumentLayout} (valid : layout.Valid)
    (compact : layout.root.Compact false) {lookahead : Nat}
    (fits : layout.root.Fits (max lookahead 1)) :
    Document.ofBytes lookahead (Text.bytes layout.written) = .ok layout.document ∧
      (layout.document.toBytes = Text.bytes layout.written ↔ layout.root.DataFirst) := by
  constructor
  · rw [ofBytes_bytes]
    exact valid.ofText_eq_ok fits
  · have root : layout.document.root.written = layout.root.rewritten := by
      have written := Layout.rewritten_element valid.root compact
      rw [← Layout.written_ofTag valid.root compact] at written
      rw [DocumentLayout.root, written, Layout.data, Layout.children, Element.writtenAll,
        List.nil_append, List.append_nil]
      rfl
    rw [Document.toBytes, Document.written, root, DocumentLayout.written, List.append_assoc,
      Utf8.bytes_inj, ← Layout.rewritten_eq_iff valid.root compact]
    show layout.prolog ++ (layout.root.rewritten ++ layout.epilogue)
      = layout.prolog ++ (layout.root.written ++ layout.epilogue) ↔ _
    rw [List.append_cancel_left_eq, List.append_cancel_right_eq]

end DocumentLayout

/-- Data stands on both sides of a child, and all of it is written in front of the child. -/
theorem data_moved_in_front_of_child :
    let single : StartTag := ⟨['b'], [], true⟩
    let tag : StartTag := ⟨['a'], [], false⟩
    let inside := Layout.text ['1'] (.element single ['<', 'b', '/', '>'] .nil []
      (.text ['2'] .nil))
    let layout : DocumentLayout :=
      ⟨[], tag, ['<', 'a', '>'], inside, ['<', '/', 'a', '>'], []⟩
    let found : Document := ⟨[], .ofTag tag ['1', '2'] [.ofTag single [] []], []⟩
    layout.Valid ∧ layout.root.Compact false ∧ layout.root.Fits 4 ∧
      layout.written
        = ['<', 'a', '>', '1', '<', 'b', '/', '>', '2', '<', '/', 'a', '>'] ∧
      Document.ofBytes 4 (Text.bytes layout.written) = .ok found ∧
      found.toBytes = Text.bytes
        ['<', 'a', '>', '1', '2', '<', 'b', '/', '>', '<', '/', 'a', '>'] ∧
      found.toBytes ≠ Text.bytes layout.written := by
  intro single tag inside layout found
  have root : layout.root.Valid :=
    .paired (StartTag.startTagText (by decide)) rfl
      (.text (by decide) (by decide) rfl (.single (StartTag.startTagText (by decide)) rfl
        (.text (by decide) (by decide) rfl .nil)))
      (endTagText_written (by decide)) .nil
  have valid : layout.Valid := ⟨by decide, root⟩
  have fits : layout.root.Fits 4 := by decide
  have read : Document.ofBytes 4 (Text.bytes layout.written) = .ok found := by
    rw [ofBytes_bytes]
    exact valid.ofText_eq_ok fits
  exact ⟨valid, by decide, fits, rfl, read, rfl, by decide⟩

/-- All data stands in front of the children, inside of an inner element too. -/
theorem data_first_read_back :
    let single : StartTag := ⟨['b'], [⟨['x'], ['<', '>']⟩], true⟩
    let inner : StartTag := ⟨['c'], [], false⟩
    let tag : StartTag := ⟨['a'], [⟨['y'], [' ']⟩, ⟨['y'], []⟩], false⟩
    let inside := Layout.text [' ', '1'] (.element inner inner.written
      (.text ['2', ' '] (.element single single.written .nil [] .nil)) (writtenClosing ['c']) .nil)
    let layout : DocumentLayout :=
      ⟨['<', '?', '>'], tag, tag.written, inside, writtenClosing ['a'], ['\n', '<', 'a', '>']⟩
    layout.Valid ∧ layout.root.Compact false ∧ layout.root.Fits 16 ∧
      Document.ofBytes 16 (Text.bytes layout.written) = .ok layout.document ∧
      layout.document.toBytes = Text.bytes layout.written := by
  intro single inner tag inside layout
  have inner : (Layout.element inner inner.written (.text ['2', ' ']
      (.element single single.written .nil [] .nil)) (writtenClosing ['c']) .nil).Valid :=
    .paired (StartTag.startTagText (by decide)) rfl
      (.text (by decide) (by decide) rfl (.single (StartTag.startTagText (by decide)) rfl .nil))
      (endTagText_written (by decide)) .nil
  have root : layout.root.Valid :=
    .paired (StartTag.startTagText (by decide)) rfl (.text (by decide) (by decide) rfl inner)
      (endTagText_written (by decide)) .nil
  have valid : layout.Valid := ⟨by decide, root⟩
  have compact : layout.root.Compact false := by decide
  have fits : layout.root.Fits (max 16 1) := by decide
  obtain ⟨read, written⟩ := DocumentLayout.toBytes_eq_iff valid compact fits
  exact ⟨valid, compact, fits, read, written.2 (by decide)⟩

end MailMerge.Markup
