import MailMerge.Proofs.Markup.Grammar
import MailMerge.Proofs.Markup.Mismatch

/-!
Texts with a wrong end tag. The layout of such a text names the elements that are open in front of
the tag, each with what lies in it so far. The tag is reported at the place where the token in front
of it ends, and space behind an end tag belongs to no token: there the report points to the space
and not to the tag.
-/

set_option autoImplicit false

namespace MailMerge.Markup

namespace Layout

/-- The space at the end of a layout when it stands directly behind an end tag, also behind one that
a single tag implies. -/
def lastSpace (behindTag : Bool) : Layout → Text
  | nil => []
  | text piece nil => if behindTag && piece.all isSpace then piece else []
  | text _ rest => rest.lastSpace false
  | element _ _ _ _ rest => rest.lastSpace true

/-- A stream whose next token is the one that `ending` begins with. Only `space` is left in between
if this token is no start tag. -/
structure InFront (limit : Nat) (ending space : Text) (last : TokenStream) : Prop where
  next : ∃ place, last.next = (⟨⟨place, ending⟩, limit, .content, none⟩ : TokenStream).next
  rest : TokenStream.beginsStartTag ending = false → last.rest = space ++ ending

section

variable {limit : Nat} {ending : Text}

theorem inFront_of_atMarkup (markup : AtMarkup ending) {phase : Phase} (active : phase ≠ .finished)
    (offset : Nat) : InFront limit ending [] ⟨⟨offset, ending⟩, limit, phase, none⟩ where
  next := by
    refine ⟨offset, ?_⟩
    rw [next_of_atMarkup limit active markup, next_of_atMarkup limit (by decide) markup]
    exact tokenAt_congr _ rfl rfl
  rest _ := rfl

theorem inFront_of_blank {space : Text} (blank : Blank space) (markup : AtMarkup ending)
    (offset : Nat) :
    InFront limit ending space ⟨⟨offset, space ++ ending⟩, limit, .afterEndTag, none⟩ where
  next := by
    refine ⟨offset + Text.byteLength space, ?_⟩
    rw [TokenStream.next, skipSpace_append blank markup.stops_isSpace]
    exact tokenAt_congr _ rfl rfl
  rest _ := rfl

/-- A piece of data at the end is a token of its own, unless nothing is kept of it. -/
theorem passes_lastText {phase : Phase} (active : phase ≠ .finished) {piece : Text}
    (filled : piece ≠ []) (plain : '<' ∉ piece) (markup : AtMarkup ending) (offset : Nat) :
    ∃ last, Passes ⟨⟨offset, piece ++ ending⟩, limit, phase, none⟩ last ∧
      InFront limit ending ((text piece nil).lastSpace (phase = .afterEndTag)) last := by
  by_cases skipped : phase = .afterEndTag ∧ Blank piece
  · obtain ⟨rfl, blank⟩ := skipped
    have all : piece.all isSpace = true := List.all_eq_true.2 blank
    refine ⟨_, .refl _, ?_⟩
    rw [lastSpace, if_pos (by simp [all])]
    exact inFront_of_blank blank markup offset
  · have nothing : (text piece nil).lastSpace (phase = .afterEndTag) = [] := by
      rw [lastSpace, if_neg]
      rw [Bool.and_eq_true, decide_eq_true_eq, List.all_eq_true]
      exact skipped
    rw [nothing]
    obtain ⟨place, ⟨dropped, same⟩ | next⟩ := next_lead limit active plain markup offset
    · refine ⟨_, .refl _, ⟨place, same⟩, fun noStart => absurd ?_ skipped⟩
      rw [noStart] at dropped
      cases phase with
      | content => exact absurd dropped filled
      | afterEndTag => exact ⟨rfl, List.dropWhile_eq_nil_iff.1 dropped⟩
      | finished => exact absurd rfl active
    · exact ⟨_, .text next (.refl _), inFront_of_atMarkup markup (by decide) place⟩

/-- A child element is passed over with its end tag, from any stream that comes to it next. -/
theorem Valid.passes_element {tag : StartTag} {opening closing : Text} {inside rest : Layout}
    (valid : (element tag opening inside closing rest).Valid)
    (fits : (element tag opening inside closing rest).Fits limit) {phase : Phase}
    (active : phase ≠ .finished) {stream : TokenStream} {place : Nat}
    (same : stream.next = (⟨⟨place, (element tag opening inside closing rest).written ++ ending⟩,
      limit, phase, none⟩ : TokenStream).next)
    {Passed : TokenStream → Prop}
    (others : ∀ offset, ∃ last,
      Passes ⟨⟨offset, rest.written ++ ending⟩, limit, .afterEndTag, none⟩ last ∧ Passed last) :
    ∃ last, Passes stream last ∧ Passed last := by
  rw [written, List.append_assoc, List.append_assoc, List.append_assoc] at same
  obtain ⟨start, next⟩ := valid.opens.next limit fits.1 active place
    (inside.written ++ (closing ++ (rest.written ++ ending)))
  obtain ⟨final, own⟩ := valid.readsBehind fits.2.1 false start (rest.written ++ ending)
  obtain ⟨last, passed, holds⟩ := others final
  exact ⟨last, .child (same.trans next) own passed, holds⟩

/-- Reading passes over everything that is laid out in front of markup. -/
theorem Valid.passes (markup : AtMarkup ending) {phase : Phase} (active : phase ≠ .finished)
    (offset : Nat) : (layout : Layout) → layout.Valid → layout.Fits limit →
    ∃ last, Passes ⟨⟨offset, layout.written ++ ending⟩, limit, phase, none⟩ last ∧
      InFront limit ending (layout.lastSpace (phase = .afterEndTag)) last
  | .nil, _, _ => ⟨_, .refl _, inFront_of_atMarkup markup active offset⟩
  | .text piece .nil, .text filled plain _ _, _ => by
    rw [written, written, List.append_nil]
    exact passes_lastText active filled plain markup offset
  | .text piece (.element tag opening inside closing rest), .text filled plain _ valid, fits => by
    have others := fun offset =>
      Valid.passes markup (show Phase.afterEndTag ≠ .finished by decide) offset rest valid.parts.2
        fits.2.2
    have first : AtMarkup ((element tag opening inside closing rest).written ++ ending) := by
      rw [written, List.append_assoc]
      exact valid.opens.atMarkup _
    rw [written, List.append_assoc]
    -- Space in front of the start tag is passed over with it, other data is a token.
    obtain ⟨place, ⟨_, same⟩ | next⟩ := next_lead limit active plain first offset
    · exact valid.passes_element fits (by decide) same others
    · obtain ⟨last, passed, holds⟩ :=
        valid.passes_element fits (show Phase.content ≠ .finished by decide) rfl others
      exact ⟨last, .text next passed, holds⟩
  | .element tag opening inside closing rest, valid, fits =>
    valid.passes_element fits active rfl fun offset =>
      Valid.passes markup (show Phase.afterEndTag ≠ .finished by decide) offset rest valid.parts.2
        fits.2.2

end

/-- A stream between two tokens that are in the text. -/
structure Between (limit : Nat) (stream : TokenStream) : Prop where
  lookahead : stream.lookahead = limit
  active : stream.phase ≠ .finished
  owes : stream.owed = none

theorem between_behind {limit : Nat} {tag : StartTag} (unclosed : tag.selfClosing = false)
    (place : Reader) : Between limit (.behind limit tag place) :=
  ⟨rfl, by simp [TokenStream.behind], by simp [TokenStream.behind, unclosed]⟩

/-- A child element that was read is laid out up to its end tag. -/
theorem exists_layout_of_contentRead {limit : Nat} {tag : StartTag} {opening data : Text}
    (opens : StartTagText tag opening) (fits : Text.byteLength opening ≤ limit) {place : Reader}
    {children : List Element} {behind : TokenStream}
    (inner : ContentRead false tag.name (.behind limit tag place) data children behind) :
    ∃ inside closing final, (element tag opening inside closing nil).Valid ∧
      (element tag opening inside closing nil).Fits limit ∧
      place.rest = inside.written ++ (closing ++ final.rest) ∧
      behind = ⟨final, limit, .afterEndTag, none⟩ := by
  cases single : tag.selfClosing with
  | true =>
    obtain ⟨-, rfl⟩ := contentRead_behind_single single inner
    exact ⟨nil, [], place, .single opens single .nil, ⟨fits, trivial, trivial⟩, rfl, rfl⟩
  | false =>
    have between : Between limit (.behind limit tag place) := between_behind single place
    have ends : ContentEnds limit false tag.name (children.map Element.shape) place.rest behind :=
      contentEnds_of_contentRead inner between.active between.owes
    obtain ⟨_, closing, final, content, closes, within, same⟩ := ends.inner
    obtain ⟨inside, valid, insideFits, rfl, -⟩ := exists_layout content
    exact ⟨inside, closing, final, .paired opens single valid closes .nil,
      ⟨fits, insideFits, trivial⟩, within, same⟩

/-- What was passed over joins what is laid out behind it. -/
theorem exists_layout_of_passes {limit : Nat} {stream last : TokenStream}
    (passed : Passes stream last) (between : Between limit stream) :
    Between limit last ∧ ∀ {tail : Layout} {ending : Text}, tail.Valid → tail.Fits limit →
      last.rest = tail.written ++ ending →
      ∃ layout : Layout, layout.Valid ∧ layout.Fits limit ∧
        stream.rest = layout.written ++ ending := by
  induction passed with
  | refl stream => exact ⟨between, fun valid fits rest => ⟨_, valid, fits, rest⟩⟩
  | @text piece stream after last next rest ih =>
    cases tokenRead_of_next next with
    | @data space _ place _ blank consumed _ plain =>
      obtain ⟨lastBetween, laid⟩ := ih ⟨between.lookahead, by simp, rfl⟩
      refine ⟨lastBetween, fun valid fits ended => ?_⟩
      obtain ⟨layout, layoutValid, layoutFits, behind⟩ := laid valid fits ended
      have joined : '<' ∉ space ++ piece := fun bracket =>
        (List.mem_append.1 bracket).elim (not_mem_of_blank blank) plain
      obtain ⟨whole, wholeValid, wholeFits, written, -⟩ :=
        exists_layout_behind joined layoutValid layoutFits
      refine ⟨whole, wholeValid, wholeFits, ?_⟩
      rw [consumed, show place.rest = _ from behind, written]
      simp
  | child next inner rest ih =>
    cases tokenRead_of_next next with
    | @opening tag space opening place _ blank opens fits consumed =>
      rw [between.lookahead] at inner fits
      obtain ⟨inside, closing, final, own, ownFits, content, rfl⟩ :=
        exists_layout_of_contentRead opens fits inner
      obtain ⟨lastBetween, laid⟩ := ih ⟨rfl, by simp, rfl⟩
      refine ⟨lastBetween, fun valid tailFits ended => ?_⟩
      obtain ⟨others, othersValid, othersFits, after⟩ := laid valid tailFits ended
      obtain ⟨whole, wholeValid, wholeFits, written, -⟩ :=
        exists_layout_behind (not_mem_of_blank blank) (own.with_rest othersValid)
          ⟨fits, ownFits.2.1, othersFits⟩
      refine ⟨whole, wholeValid, wholeFits, ?_⟩
      rw [consumed, content, show final.rest = _ from after, written]
      simp [Layout.written]

/-- Space that is left behind it is laid out with what was passed over. -/
theorem exists_layout_in_front {limit : Nat} {stream last : TokenStream}
    (passed : Passes stream last) (between : Between limit stream) {space ending : Text}
    (blank : Blank space) (left : last.rest = space ++ ending) :
    ∃ layout : Layout, layout.Valid ∧ layout.Fits limit ∧
      stream.rest = layout.written ++ ending := by
  obtain ⟨tail, valid, fits, spaced, -⟩ :=
    exists_layout_behind (not_mem_of_blank blank) .nil trivial
  refine (exists_layout_of_passes passed between).2 valid fits ?_
  rw [left, spaced, written, List.append_nil]

end Layout

/-- An element that is still open: its start tag, and what lies behind it so far. -/
structure OpenElement where
  tag : StartTag
  opening : Text
  inside : Layout
  deriving Repr, DecidableEq

namespace OpenElement

def written (element : OpenElement) : Text := element.opening ++ element.inside.written

/-- The parts are what the layout says that they are, and no start tag is too long. -/
structure Valid (limit : Nat) (element : OpenElement) : Prop where
  opens : StartTagText element.tag element.opening
  fits : Text.byteLength element.opening ≤ limit
  unclosed : element.tag.selfClosing = false
  content : element.inside.Valid
  contentFits : element.inside.Fits limit

variable {limit : Nat}

/-- Reading goes on behind the start tag up to what stands behind the element's content. -/
theorem Valid.passes {element : OpenElement} (valid : element.Valid limit) {ending : Text}
    (markup : AtMarkup ending) (offset : Nat) :
    ∃ last, Passes (.behind limit element.tag ⟨offset, element.inside.written ++ ending⟩) last ∧
      Layout.InFront limit ending (element.inside.lastSpace false) last := by
  have passed := Layout.Valid.passes markup (show Phase.content ≠ .finished by decide) offset
    element.inside valid.content valid.contentFits
  rw [TokenStream.behind, valid.unclosed]
  exact passed

/-- Inside of open elements, reading fails at an end tag of another name than the innermost one's.
The report points behind the last token, so the last space stands between it and the tag. -/
theorem exists_mismatches {found closing : Text} (closes : EndTagText found closing) (rest : Text)
    {deeper : List OpenElement} : ∀ {first : OpenElement}, first.Valid limit →
    (∀ element, element ∈ deeper → element.Valid limit) →
    found ≠ (deeper.getLastD first).tag.name → ∀ offset, ∃ position,
      Mismatches first.tag.name (.behind limit first.tag
          ⟨offset, first.inside.written ++ (deeper.flatMap written ++ (closing ++ rest))⟩)
        (deeper.getLastD first).tag.name found position ∧
      position + Text.byteLength ((deeper.getLastD first).inside.lastSpace false)
        = offset + Text.byteLength (first.inside.written ++ deeper.flatMap written) := by
  induction deeper with
  | nil =>
    intro first valid _ wrong offset
    obtain ⟨last, passed, ⟨place, same⟩, left⟩ := valid.passes (closes.atMarkup rest) offset
    obtain ⟨_, next⟩ :=
      closes.next limit (show Phase.content ≠ .finished by decide) place rest
    refine ⟨last.offset, .here passed (same.trans next) wrong, ?_⟩
    have noStart : TokenStream.beginsStartTag (closing ++ rest) = false := by
      cases closes
      rfl
    have sum : last.offset + Text.byteLength last.rest
        = offset + Text.byteLength (first.inside.written ++ (closing ++ rest)) :=
      passed.reaches.sum_eq
    rw [left noStart] at sum
    simp only [Text.byteLength_append] at sum
    rw [List.flatMap_nil, List.append_nil, List.getLastD_nil]
    omega
  | cons element deeper ih =>
    intro first valid others wrong offset
    obtain ⟨own, others⟩ := List.forall_mem_cons.1 others
    rw [List.getLastD_cons] at wrong ⊢
    have opens := own.opens
    obtain ⟨last, passed, ⟨place, same⟩, -⟩ := valid.passes (opens.atMarkup
      (element.inside.written ++ (deeper.flatMap written ++ (closing ++ rest)))) offset
    obtain ⟨start, next⟩ := opens.next limit own.fits (show Phase.content ≠ .finished by decide)
      place (element.inside.written ++ (deeper.flatMap written ++ (closing ++ rest)))
    rw [← same] at next
    obtain ⟨position, inner, sum⟩ := ih own others wrong start
    have text : (element :: deeper).flatMap written ++ (closing ++ rest) = element.opening
        ++ (element.inside.written ++ (deeper.flatMap written ++ (closing ++ rest))) := by
      simp [written]
    refine ⟨position, ?_, ?_⟩
    · rw [text]
      exact .inside passed next inner
    · have opened : start + Text.byteLength
            (element.inside.written ++ (deeper.flatMap written ++ (closing ++ rest)))
          = offset + Text.byteLength (first.inside.written ++ (element.opening
            ++ (element.inside.written ++ (deeper.flatMap written ++ (closing ++ rest))))) :=
        (passed.reaches.trans (reaches_next next)).sum_eq
      simp only [Text.byteLength_append] at opened sum
      simp only [List.flatMap_cons, written, Text.byteLength_append]
      omega

/-- Where reading inside an element fails, the text is laid out as open elements with a wrong end
tag behind them. -/
theorem exists_open {name expected found : Text} {position : Nat} {stream : TokenStream}
    (mismatch : Mismatches name stream expected found position)
    (between : Layout.Between limit stream) : ∀ {tag : StartTag} {opening : Text}, tag.name = name →
    StartTagText tag opening → Text.byteLength opening ≤ limit → tag.selfClosing = false →
    ∃ (first : OpenElement) (deeper : List OpenElement) (closing rest : Text), first.Valid limit ∧
      (∀ element, element ∈ deeper → element.Valid limit) ∧ EndTagText found closing ∧
      found ≠ expected ∧ (deeper.getLastD first).tag.name = expected ∧
      opening ++ stream.rest = first.written ++ (deeper.flatMap written ++ (closing ++ rest)) := by
  induction mismatch with
  | @here name found stream last after passed next other =>
    intro tag opening named opens fits unclosed
    have lastBetween := (Layout.exists_layout_of_passes passed between).1
    cases tokenRead_of_next next with
    | owed owes => exact absurd (lastBetween.owes.symm.trans owes) (by simp)
    | @closing _ space closing place _ blank closes consumed =>
      obtain ⟨inside, valid, insideFits, whole⟩ :=
        Layout.exists_layout_in_front passed between blank consumed
      refine ⟨⟨tag, opening, inside⟩, [], closing, place.rest,
        ⟨opens, fits, unclosed, valid, insideFits⟩, by simp, closes, other, named, ?_⟩
      rw [whole, List.flatMap_nil, List.nil_append, written, List.append_assoc]
  | @inside name expected found position child stream last after passed next inner ih =>
    intro tag opening named opens fits unclosed
    have lastBetween := (Layout.exists_layout_of_passes passed between).1
    cases tokenRead_of_next next with
    | @opening _ space own place _ blank childOpens childFits consumed =>
      rw [lastBetween.lookahead] at childFits inner ih
      have childUnclosed := unclosed_of_mismatches inner
      obtain ⟨element, deeper, closing, rest, valid, others, closes, other, innermost, text⟩ :=
        ih (Layout.between_behind childUnclosed place) rfl childOpens childFits childUnclosed
      rw [show own ++ place.rest = _ from text] at consumed
      obtain ⟨inside, insideValid, insideFits, whole⟩ :=
        Layout.exists_layout_in_front passed between blank consumed
      refine ⟨⟨tag, opening, inside⟩, element :: deeper, closing, rest,
        ⟨opens, fits, unclosed, insideValid, insideFits⟩,
        List.forall_mem_cons.2 ⟨valid, others⟩, closes, other, ?_, ?_⟩
      · rw [List.getLastD_cons, innermost]
      · rw [whole, List.flatMap_cons, List.append_assoc]
        exact (List.append_assoc opening _ _).symm

end OpenElement

/-- A text with an end tag that closes the wrong element, as it is laid out: the text in front of
the root, the root and the open elements inside of it, each in the one in front of it, then the end
tag, and whatever follows. -/
structure WrongEndTag where
  prolog : Text
  root : OpenElement
  deeper : List OpenElement
  /-- The name that the end tag spells. -/
  found : Text
  closing : Text
  rest : Text
  deriving Repr, DecidableEq

namespace WrongEndTag

def front (layout : WrongEndTag) : Text :=
  layout.prolog ++ (layout.root.written ++ layout.deeper.flatMap OpenElement.written)

def written (layout : WrongEndTag) : Text := layout.front ++ (layout.closing ++ layout.rest)

/-- The element that the end tag should close. -/
def innermost (layout : WrongEndTag) : OpenElement := layout.deeper.getLastD layout.root

/-- The space between the end tag and another one directly in front of it. -/
def space (layout : WrongEndTag) : Text := layout.innermost.inside.lastSpace false

/-- The parts are what the layout says that they are, and the end tag is the wrong one. -/
structure Valid (limit : Nat) (layout : WrongEndTag) : Prop where
  prolog : NoStartTag layout.prolog
  root : layout.root.Valid limit
  deeper : ∀ element, element ∈ layout.deeper → element.Valid limit
  closes : EndTagText layout.found layout.closing
  wrong : layout.found ≠ layout.innermost.tag.name

variable {layout : WrongEndTag} {lookahead : Nat}

/-- A text that is laid out up to a wrong end tag is not read, and the report points behind the last
token in front of the tag. -/
theorem Valid.exists_position (valid : layout.Valid (max lookahead 1)) :
    ∃ position, Document.ofText lookahead layout.written
        = .error (.mismatchedTag layout.innermost.tag.name layout.found position) ∧
      position + Text.byteLength layout.space = Text.byteLength layout.front := by
  have text : layout.written = layout.prolog ++ (layout.root.opening ++ (layout.root.inside.written
      ++ (layout.deeper.flatMap OpenElement.written ++ (layout.closing ++ layout.rest)))) := by
    simp [written, front, OpenElement.written]
  obtain ⟨place, first⟩ := valid.root.opens.first valid.root.fits valid.prolog
    (layout.root.inside.written
      ++ (layout.deeper.flatMap OpenElement.written ++ (layout.closing ++ layout.rest)))
  rw [← text] at first
  obtain ⟨position, mismatch, sum⟩ := OpenElement.exists_mismatches valid.closes layout.rest
    valid.root valid.deeper valid.wrong place
  refine ⟨position, ofText_eq_mismatchedTag_iff.2 ⟨_, _, _, first, mismatch⟩, ?_⟩
  have opened : place + Text.byteLength (layout.root.inside.written
        ++ (layout.deeper.flatMap OpenElement.written ++ (layout.closing ++ layout.rest)))
      = 0 + Text.byteLength layout.written := (reaches_first first).sum_eq
  rw [text] at opened
  simp only [Text.byteLength_append] at opened sum
  simp only [space, innermost, front, OpenElement.written, Text.byteLength_append]
  omega

/-- Reading fails at a wrong end tag exactly when the text is laid out up to one. -/
theorem ofText_eq_mismatchedTag_iff_layout {text expected found : Text} {position : Nat} :
    Document.ofText lookahead text = .error (.mismatchedTag expected found position) ↔
      ∃ layout : WrongEndTag, layout.Valid (max lookahead 1) ∧ layout.written = text ∧
        layout.innermost.tag.name = expected ∧ layout.found = found ∧
        position + Text.byteLength layout.space = Text.byteLength layout.front := by
  constructor
  · intro failure
    obtain ⟨prolog, tag, stream, first, mismatch⟩ := ofText_eq_mismatchedTag_iff.1 failure
    obtain ⟨opening, place, noStart, opens, fits, rfl, rfl⟩ := first_eq_ok first
    have unclosed := unclosed_of_mismatches mismatch
    obtain ⟨root, deeper, closing, rest, valid, others, closes, wrong, rfl, whole⟩ :=
      OpenElement.exists_open mismatch (Layout.between_behind unclosed place) rfl opens fits
        unclosed
    have laid : WrongEndTag.Valid (max lookahead 1) ⟨prolog, root, deeper, found, closing, rest⟩ :=
      ⟨noStart, valid, others, closes, wrong⟩
    have text : WrongEndTag.written ⟨prolog, root, deeper, found, closing, rest⟩
        = prolog ++ (opening ++ place.rest) := by
      rw [show opening ++ place.rest = _ from whole]
      simp [written, front]
    obtain ⟨reported, again, sum⟩ := laid.exists_position
    rw [text, failure] at again
    cases again
    exact ⟨_, laid, text, rfl, rfl, sum⟩
  · rintro ⟨layout, valid, rfl, rfl, rfl, sum⟩
    obtain ⟨reported, failure, same⟩ := valid.exists_position
    have position : reported = position := by omega
    rw [failure, position]

/-- The position that is reported for a wrong end tag is that of its bracket, less the space between
the tag and another end tag directly in front of it. -/
theorem mismatchedTag_position {bytes : List UInt8} {expected found : Text} {position : Nat}
    (failure : Document.ofBytes lookahead bytes
      = .error (.mismatchedTag expected found position)) :
    (∃ layout : WrongEndTag, layout.Valid (max lookahead 1) ∧
        Text.bytes layout.written = bytes) ∧
      ∀ layout : WrongEndTag, layout.Valid (max lookahead 1) →
        Text.bytes layout.written = bytes →
        layout.innermost.tag.name = expected ∧ layout.found = found ∧
          position + Text.byteLength layout.space = Text.byteLength layout.front ∧
          (position = Text.byteLength layout.front ↔ layout.space = []) := by
  have read : ∃ text, bytes = Text.bytes text ∧
      Document.ofText lookahead text = .error (.mismatchedTag expected found position) := by
    unfold Document.ofBytes at failure
    split at failure
    · rename_i text decoded
      exact ⟨text, Utf8.decode_eq_ok_iff.1 decoded, failure⟩
    · cases failure
  obtain ⟨text, rfl, read⟩ := read
  constructor
  · obtain ⟨layout, valid, same, -⟩ := ofText_eq_mismatchedTag_iff_layout.1 read
    exact ⟨layout, valid, congrArg Text.bytes same⟩
  · intro layout valid same
    rw [Utf8.bytes_inj] at same
    obtain ⟨reported, again, sum⟩ := valid.exists_position
    rw [same, read] at again
    cases again
    refine ⟨rfl, rfl, sum, fun exactly => ?_, fun nothing => ?_⟩
    · have length := Text.length_le_byteLength layout.space
      exact List.eq_nil_of_length_eq_zero (by omega)
    · rw [nothing] at sum
      exact sum

/-- Behind a space that stands behind data, the place of the end tag itself is reported. -/
theorem end_tag_reported_behind_data :
    let child : OpenElement := ⟨⟨['b'], [], false⟩, ['<', 'b', '>'], .text ['1', ' '] .nil⟩
    let layout : WrongEndTag := ⟨[' '], ⟨⟨['a'], [], false⟩, ['<', 'a', '>'], .text ['\n'] .nil⟩,
      [child], ['a'], ['<', '/', 'a', '>'], []⟩
    Document.ofBytes defaultLookahead (Text.bytes layout.written)
        = .error (.mismatchedTag ['b'] ['a'] 10) ∧
      10 = Text.byteLength layout.front := by
  intro child layout
  have root : layout.root.Valid (max defaultLookahead 1) :=
    ⟨StartTag.startTagText (by decide), by decide, rfl, .text (by decide) (by decide) rfl .nil,
      by decide⟩
  have inner : child.Valid (max defaultLookahead 1) :=
    ⟨StartTag.startTagText (by decide), by decide, rfl, .text (by decide) (by decide) rfl .nil,
      by decide⟩
  have valid : layout.Valid (max defaultLookahead 1) :=
    ⟨by decide, root, List.forall_mem_singleton.2 inner, endTagText_written (by decide), by decide⟩
  have failure : Document.ofBytes defaultLookahead (Text.bytes layout.written)
      = .error (.mismatchedTag ['b'] ['a'] 10) := by
    rw [ofBytes_bytes]
    exact ofText_eq_mismatchedTag_iff_layout.2 ⟨layout, valid, rfl, rfl, rfl, by decide⟩
  obtain ⟨-, reports⟩ := mismatchedTag_position failure
  obtain ⟨-, -, -, exactly⟩ := reports layout valid rfl
  exact ⟨failure, exactly.2 (by decide)⟩

/-- Behind a child's end tag and a space, the place of the space is reported for the end tag. -/
theorem space_reported_for_end_tag :
    let content := Layout.element ⟨['b'], [], false⟩ ['<', 'b', '>'] .nil ['<', '/', 'b', '>']
      (.text [' '] .nil)
    let layout : WrongEndTag := ⟨[], ⟨⟨['a'], [], false⟩, ['<', 'a', '>'], content⟩, [], ['x'],
      ['<', '/', 'x', '>'], ['<', '/', 'a', '>']⟩
    layout.Valid defaultLookahead ∧
      layout.front = ['<', 'a', '>', '<', 'b', '>', '<', '/', 'b', '>', ' '] ∧
      Document.ofBytes defaultLookahead (Text.bytes layout.written)
        = .error (.mismatchedTag ['a'] ['x'] 10) ∧
      Text.byteLength layout.front = 11 := by
  intro content layout
  have contentValid : content.Valid :=
    .paired (StartTag.startTagText (by decide)) rfl .nil (endTagText_written (by decide))
      (.text (by decide) (by decide) rfl .nil)
  have root : layout.root.Valid (max defaultLookahead 1) :=
    ⟨StartTag.startTagText (by decide), by decide, rfl, contentValid, by decide⟩
  have valid : layout.Valid (max defaultLookahead 1) :=
    ⟨by decide, root, List.forall_mem_nil _, endTagText_written (by decide), by decide⟩
  refine ⟨valid, rfl, ?_, by decide⟩
  rw [ofBytes_bytes]
  exact ofText_eq_mismatchedTag_iff_layout.2 ⟨layout, valid, rfl, rfl, rfl, by decide⟩

end WrongEndTag

end MailMerge.Markup
