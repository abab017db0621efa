import MailMerge.Proofs.Markup.Grammar
import MailMerge.Proofs.Markup.Window

set_option autoImplicit false

namespace MailMerge.Markup

/-- A text is the start tag of one tag only. -/
theorem StartTagText.unique_tag {tag other : StartTag} {text : Text} (opens : StartTagText tag text)
    (others : StartTagText other text) : tag = other := by
  obtain ⟨_, read⟩ := opens.gives (Nat.le_refl (Text.byteLength text)) 0 []
  obtain ⟨_, again⟩ := others.gives (Nat.le_refl (Text.byteLength text)) 0 []
  rw [read] at again
  cases again
  rfl

/-- A text begins with one end tag at most. -/
theorem EndTagText.unique {name other text closing rest behind : Text}
    (closes : EndTagText name text) (others : EndTagText other closing)
    (same : text ++ rest = closing ++ behind) : text = closing := by
  obtain ⟨_, read⟩ := closes.gives 0 rest
  obtain ⟨_, again⟩ := others.gives 0 behind
  rw [same, again] at read
  cases read
  exact List.append_cancel_right same

theorem EndTagText.noStart {name text : Text} (closes : EndTagText name text) (rest : Text) :
    TokenStream.beginsStartTag (text ++ rest) = false := by
  cases closes
  rfl

namespace Layout

section

variable {layout other : Layout} {ending behind : Text}

/-- What comes first in a layout is what comes first in its text. -/
theorem Valid.begins (valid : layout.Valid) (markup : AtMarkup ending)
    (noStart : TokenStream.beginsStartTag ending = false) :
    (AtMarkup (layout.written ++ ending) ↔ layout.beginsText = false) ∧
      TokenStream.beginsStartTag (layout.written ++ ending) = layout.beginsElement := by
  by_cases whole : layout.beginsText = false
  · have here := valid.atMarkup whole markup noStart
    exact ⟨⟨fun _ => whole, fun _ => here.1⟩, here.2⟩
  · cases valid with
    | nil | single | paired => exact absurd rfl whole
    | @text piece rest filled plain _ _ =>
      obtain ⟨c, others, rfl⟩ := List.exists_cons_of_ne_nil filled
      have bracket : c ≠ '<' := fun same => plain (by simp [same])
      refine ⟨⟨fun first => absurd first (not_atMarkup_cons bracket), fun first => ?_⟩, ?_⟩
      · exact absurd first whole
      · show TokenStream.beginsStartTag (c :: (others ++ rest.written ++ ending)) = false
        simp [TokenStream.beginsStartTag, bracket]

/-- Texts with a common beginning are laid out alike as far as the layouts go. -/
theorem Valid.unique (valid : layout.Valid) (otherValid : other.Valid) (markup : AtMarkup ending)
    (noStart : TokenStream.beginsStartTag ending = false) (otherMarkup : AtMarkup behind)
    (otherNoStart : TokenStream.beginsStartTag behind = false)
    (same : layout.written ++ ending = other.written ++ behind) :
    layout = other ∧ ending = behind := by
  induction layout generalizing other ending behind with
  | nil =>
    have here := valid.begins markup noStart
    have there := otherValid.begins otherMarkup otherNoStart
    rw [same] at here
    cases other with
    | nil => exact ⟨rfl, same⟩
    | text => exact absurd (there.1.1 (here.1.2 rfl)) (by simp [beginsText])
    | element => exact absurd (here.2.symm.trans there.2) (by simp [beginsElement])
  | text piece rest ih =>
    have here := valid.begins markup noStart
    have there := otherValid.begins otherMarkup otherNoStart
    rw [same] at here
    cases other with
    | nil => exact absurd (here.1.1 (there.1.2 rfl)) (by simp [beginsText])
    | element => exact absurd (here.1.1 (there.1.2 rfl)) (by simp [beginsText])
    | text front others =>
      cases valid with
      | text _ plain whole restValid =>
        cases otherValid with
        | text _ frontPlain frontWhole othersValid =>
          -- Each piece goes up to the first bracket, so both are the same characters.
          have restMarkup := (restValid.atMarkup whole markup noStart).1
          have othersMarkup := (othersValid.atMarkup frontWhole otherMarkup otherNoStart).1
          rw [written, written, List.append_assoc, List.append_assoc] at same
          have pieces := congrArg (List.takeWhile (· ≠ '<')) same
          rw [takeWhile_append (forall_ne_bracket plain) restMarkup.stops_data,
            takeWhile_append (forall_ne_bracket frontPlain) othersMarkup.stops_data] at pieces
          subst pieces
          have tails := ih restValid othersValid markup noStart otherMarkup otherNoStart
            (List.append_cancel_left same)
          exact ⟨by rw [tails.1], tails.2⟩
  | element tag opening inside closing rest insideIh restIh =>
    have here := valid.begins markup noStart
    have there := otherValid.begins otherMarkup otherNoStart
    rw [same] at here
    cases other with
    | nil => exact absurd (here.2.symm.trans there.2) (by simp [beginsElement])
    | text => exact absurd (there.1.1 (here.1.2 rfl)) (by simp [beginsText])
    | element otherTag otherOpening otherInside otherClosing others =>
      rw [written, written] at same
      simp only [List.append_assoc] at same
      have openings := valid.opens.unique otherValid.opens same
      subst openings
      have tags := valid.opens.unique_tag otherValid.opens
      subst tags
      have contents := List.append_cancel_left same
      cases valid with
      | single opens closed restValid =>
        cases otherValid with
        | single _ _ othersValid =>
          have tails :=
            restIh restValid othersValid markup noStart otherMarkup otherNoStart contents
          exact ⟨by rw [tails.1], tails.2⟩
        | paired _ unclosed => exact absurd (closed.symm.trans unclosed) (by simp)
      | paired opens unclosed insideValid closes restValid =>
        cases otherValid with
        | single _ closed => exact absurd (closed.symm.trans unclosed) (by simp)
        | paired _ _ otherContent otherCloses othersValid =>
          have insides := insideIh insideValid otherContent (closes.atMarkup _) (closes.noStart _)
            (otherCloses.atMarkup _) (otherCloses.noStart _) contents
          have closings := closes.unique otherCloses insides.2
          subst closings
          have tails := restIh restValid othersValid markup noStart otherMarkup otherNoStart
            (List.append_cancel_left insides.2)
          exact ⟨by rw [insides.1, tails.1], tails.2⟩

end

end Layout

/-- What may stand behind the content of the root: its end tag with anything behind it, or
nothing. -/
def RootEnds (name closing epilogue : Text) : Prop :=
  EndTagText name closing ∨ closing = [] ∧ epilogue = []

section

variable {name closing epilogue otherClosing otherEpilogue : Text}

theorem RootEnds.atMarkup (ends : RootEnds name closing epilogue) :
    AtMarkup (closing ++ epilogue) ∧
      TokenStream.beginsStartTag (closing ++ epilogue) = false := by
  rcases ends with closes | ⟨rfl, rfl⟩
  · exact ⟨closes.atMarkup epilogue, closes.noStart epilogue⟩
  · exact ⟨Or.inl rfl, rfl⟩

theorem EndTagText.append_ne_nil (closes : EndTagText name closing) :
    closing ++ epilogue ≠ [] := by
  cases closes
  simp

theorem RootEnds.unique (ends : RootEnds name closing epilogue)
    (otherEnds : RootEnds name otherClosing otherEpilogue)
    (same : closing ++ epilogue = otherClosing ++ otherEpilogue) :
    closing = otherClosing ∧ epilogue = otherEpilogue := by
  rcases ends with closes | ⟨rfl, rfl⟩
  · rcases otherEnds with otherCloses | ⟨rfl, rfl⟩
    · have closings := closes.unique otherCloses same
      subst closings
      exact ⟨rfl, List.append_cancel_left same⟩
    · exact absurd same closes.append_ne_nil
  · rcases otherEnds with otherCloses | ⟨rfl, rfl⟩
    · exact absurd same.symm otherCloses.append_ne_nil
    · exact ⟨rfl, rfl⟩

end

namespace DocumentLayout

/-- The parts are what the layout says that they are. The root may lack its end tag, and then
nothing follows. -/
inductive Readable (layout : DocumentLayout) : Prop
  | closed (valid : layout.Valid)
  | unclosed (prolog : NoStartTag layout.prolog) (opens : StartTagText layout.tag layout.opening)
      (paired : layout.tag.selfClosing = false) (inside : layout.inside.Valid)
      (noEnd : layout.closing = []) (atEnd : layout.epilogue = [])

section

variable {layout other : DocumentLayout} {lookahead : Nat}

theorem Readable.noStart (readable : layout.Readable) : NoStartTag layout.prolog := by
  cases readable with
  | closed valid => exact valid.prolog
  | unclosed prolog => exact prolog

theorem Readable.opens (readable : layout.Readable) : StartTagText layout.tag layout.opening := by
  cases readable with
  | closed valid => exact valid.root.opens
  | unclosed _ opens => exact opens

/-- What stands behind the root's start tag: nothing that belongs to a single tag, else the content
up to an end tag or the end of the text. -/
theorem Readable.behind_opening (readable : layout.Readable) :
    (layout.tag.selfClosing = true ∧ layout.inside = .nil ∧ layout.closing = []) ∨
      (layout.tag.selfClosing = false ∧ layout.inside.Valid ∧
        RootEnds layout.tag.name layout.closing layout.epilogue) := by
  cases readable with
  | unclosed _ _ paired inside noEnd atEnd =>
    exact Or.inr ⟨paired, inside, Or.inr ⟨noEnd, atEnd⟩⟩
  | closed valid =>
    obtain ⟨prolog, tag, opening, inside, closing, epilogue⟩ := layout
    have root : (Layout.element tag opening inside closing .nil).Valid := valid.root
    cases root with
    | single _ closed => exact Or.inl ⟨closed, rfl, rfl⟩
    | paired _ unclosed content closes => exact Or.inr ⟨unclosed, content, Or.inl closes⟩

/-- A document that is laid out is read from its text if its start tags fit into the window. -/
theorem Readable.ofText_eq_ok (readable : layout.Readable)
    (fits : layout.root.Fits (max lookahead 1)) :
    Document.ofText lookahead layout.written = .ok layout.document := by
  cases readable with
  | closed valid => exact valid.ofText_eq_ok fits
  | unclosed prolog opens paired inside noEnd atEnd =>
    have read := ofText_unclosed prolog opens fits.1 paired inside fits.2.1
    rw [layout.written_eq, noEnd, atEnd, List.append_nil, List.append_nil, read, document, atEnd]

/-- A document that was read is laid out in the text. -/
theorem exists_readable {text : Text} {document : Document}
    (success : Document.ofText lookahead text = .ok document) :
    ∃ layout : DocumentLayout, layout.Readable ∧ layout.written = text ∧
      layout.root.Fits (max lookahead 1) ∧ layout.document = document := by
  have laid : ∃ layout : DocumentLayout, layout.Readable ∧ layout.written = text ∧
      layout.root.Fits (max lookahead 1) := by
    obtain ⟨tag, stream, data, children, final, first, read, _⟩ := ofText_eq_ok_iff.1 success
    obtain ⟨opening, place, noStart, opens, fits, whole, rfl⟩ := first_eq_ok first
    have derived := rootText_of_contentRead opens fits read
    rw [whole]
    generalize opening ++ place.rest = found at derived
    generalize (Element.ofTag tag data children).shape = shape at derived
    generalize final.rest = epilogue at derived
    cases derived with
    | closed own =>
      obtain ⟨tag, opening, inside, closing, valid, fits, rfl, _⟩ := laidOut_of_elementText own
      refine ⟨⟨document.prolog, tag, opening, inside, closing, epilogue⟩,
        .closed ⟨noStart, valid⟩, ?_, fits⟩
      simp [written_eq]
    | unclosed opens fits paired content =>
      obtain ⟨inside, valid, insideFits, rfl, _⟩ := exists_layout content
      refine ⟨⟨document.prolog, _, _, inside, [], []⟩,
        .unclosed noStart opens paired valid rfl rfl, ?_, fits, insideFits, trivial⟩
      simp [written_eq]
  obtain ⟨layout, readable, rfl, fits⟩ := laid
  refine ⟨layout, readable, rfl, fits, ?_⟩
  have again := readable.ofText_eq_ok fits
  rw [success] at again
  exact (Except.ok.inj again).symm

/-- A text has one layout only. -/
theorem Readable.unique (readable : layout.Readable) (otherReadable : other.Readable)
    (same : layout.written = other.written) : layout = other := by
  have cut := cutAtStartTag?_append readable.noStart (readable.opens.beginsStartTag
    (layout.inside.written ++ (layout.closing ++ layout.epilogue)))
  have otherCut := cutAtStartTag?_append otherReadable.noStart
    (otherReadable.opens.beginsStartTag
      (other.inside.written ++ (other.closing ++ other.epilogue)))
  rw [← written_eq] at cut otherCut
  rw [same, otherCut] at cut
  obtain ⟨prologs, roots⟩ := Prod.mk.inj (Option.some.inj cut)
  have behind := readable.behind_opening
  have otherBehind := otherReadable.behind_opening
  have opens := readable.opens
  have otherOpens := otherReadable.opens
  obtain ⟨prolog, tag, opening, inside, closing, epilogue⟩ := layout
  obtain ⟨otherProlog, otherTag, otherOpening, otherInside, otherClosing, otherEpilogue⟩ := other
  dsimp only at prologs roots behind otherBehind opens otherOpens
  have openings := opens.unique otherOpens roots.symm
  subst prologs openings
  have tags := opens.unique_tag otherOpens
  subst tags
  have contents := (List.append_cancel_left roots).symm
  rcases behind with ⟨single, rfl, rfl⟩ | ⟨paired, valid, ends⟩
  · rcases otherBehind with ⟨_, rfl, rfl⟩ | ⟨otherPaired, _⟩
    · rw [show epilogue = otherEpilogue from contents]
    · exact absurd (single.symm.trans otherPaired) (by simp)
  · rcases otherBehind with ⟨single, _⟩ | ⟨_, otherValid, otherEnds⟩
    · exact absurd (single.symm.trans paired) (by simp)
    · have insides := valid.unique otherValid ends.atMarkup.1 ends.atMarkup.2
        otherEnds.atMarkup.1 otherEnds.atMarkup.2 contents
      have tails := ends.unique otherEnds insides.2
      rw [insides.1, tails.1, tails.2]

/-- A document that is laid out is read exactly if its start tags fit into the window. -/
theorem Readable.ofText_eq_ok_iff (readable : layout.Readable) (lookahead : Nat)
    (document : Document) :
    Document.ofText lookahead layout.written = .ok document ↔
      layout.root.Fits (max lookahead 1) ∧ document = layout.document := by
  constructor
  · intro success
    obtain ⟨other, otherReadable, same, fits, rfl⟩ := exists_readable success
    rw [← otherReadable.unique readable same]
    exact ⟨fits, rfl⟩
  · rintro ⟨fits, rfl⟩
    exact readable.ofText_eq_ok fits

/-- The bytes of a document that was read have a layout, and the layout tells what was read. -/
theorem readable_of_ofBytes {bytes : List UInt8} {document : Document}
    (success : Document.ofBytes lookahead bytes = .ok document) :
    (∃ layout : DocumentLayout, layout.Readable ∧ Text.bytes layout.written = bytes) ∧
      ∀ layout : DocumentLayout, layout.Readable → Text.bytes layout.written = bytes →
        layout.root.Fits (max lookahead 1) ∧ document = layout.document := by
  constructor
  · cases decoded : Utf8.decode bytes with
    | error fault =>
      rw [Document.ofBytes, decoded] at success
      cases success
    | ok text =>
      rw [Document.ofBytes, decoded] at success
      obtain ⟨layout, readable, written, _⟩ := exists_readable success
      exact ⟨layout, readable, by rw [written, Utf8.decode_eq_ok_iff.1 decoded]⟩
  · intro layout readable same
    rw [← same, ofBytes_bytes] at success
    exact (readable.ofText_eq_ok_iff lookahead document).1 success

end

end DocumentLayout

end MailMerge.Markup
