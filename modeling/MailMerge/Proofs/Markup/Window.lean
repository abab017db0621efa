import MailMerge.Proofs.Markup.RoundTrip

set_option autoImplicit false

namespace MailMerge.Markup

/-- A text begins with one start tag at most. -/
theorem StartTagText.unique {tag other : StartTag} {opening text rest behind : Text}
    (opens : StartTagText tag opening) (others : StartTagText other text)
    (same : opening ++ rest = text ++ behind) : opening = text := by
  obtain ⟨limit, limitEq⟩ :
    ∃ limit, limit = max (Text.byteLength opening) (Text.byteLength text) := ⟨_, rfl⟩
  obtain ⟨place, read⟩ := opens.gives (show Text.byteLength opening ≤ limit by omega) 0 rest
  obtain ⟨last, again⟩ := others.gives (show Text.byteLength text ≤ limit by omega) 0 behind
  rw [same, again] at read
  cases read
  exact List.append_cancel_right same

section

variable {tag : StartTag} {opening : Text} (opens : StartTagText tag opening) {rest : Text}
include opens

/-- Only a start tag that fits into the window is read. -/
theorem StartTagText.fits_of_openTag {stream after : TokenStream} {found : StartTag}
    (owes : stream.owed = none) {offset : Nat}
    (success : stream.openTag ⟨offset, opening ++ rest⟩ = (.ok found, after)) :
    Text.byteLength opening ≤ stream.lookahead := by
  obtain ⟨text, behind, others, fits, consumed, _⟩ :=
    openTag_eq_ok owes (opens.beginsStartTag rest) success
  rw [opens.unique others consumed]
  exact fits

theorem StartTagText.fits_of_next {limit : Nat} {phase : Phase} (active : phase ≠ .finished)
    {offset : Nat} {token : Option Token} {after : TokenStream}
    (success : (⟨⟨offset, opening ++ rest⟩, limit, phase, none⟩ : TokenStream).next
      = (.ok token, after)) : Text.byteLength opening ≤ limit := by
  have markup := opens.atMarkup rest
  have here : Reader.skipSpace ⟨offset, opening ++ rest⟩ = ⟨offset, opening ++ rest⟩ :=
    skipSpace_eq_self markup.stops_isSpace
  have begins := opens.beginsStartTag rest
  rw [next_of_atMarkup limit active markup, tokenAt_startTag (by rwa [here]), here] at success
  split at success
  · rename_i opened
    exact opens.fits_of_openTag rfl opened
  · cases success

theorem StartTagText.fits_of_first {lookahead : Nat} {prolog before : Text}
    (noStart : NoStartTag prolog) {found : StartTag} {after : TokenStream}
    (success : (TokenStream.ofText lookahead (prolog ++ (opening ++ rest))).first
      = (.ok (before, found), after)) : Text.byteLength opening ≤ max lookahead 1 := by
  have cut := cutAtStartTag?_append noStart (opens.beginsStartTag rest)
  rw [TokenStream.first] at success
  simp only [TokenStream.ofText, Reader.ofText, cut] at success
  split at success
  · rename_i opened
    exact opens.fits_of_openTag rfl opened
  · cases success

end

section

variable {isRoot : Bool} {name data : Text} {stream final : TokenStream} {children : List Element}

/-- Reading the content of an element has one outcome. -/
theorem ContentRead.unique {others : List Element} {other : Text} {last : TokenStream}
    (read : ContentRead isRoot name stream data children final)
    (again : ContentRead isRoot name stream other others last) :
    data = other ∧ children = others ∧ final = last := by
  rw [← readInside_eq_ok_iff] at read again
  rw [read] at again
  cases again
  exact ⟨rfl, rfl, rfl⟩

/-- Reading goes on to a next token, or to the end. -/
theorem ContentRead.exists_next (read : ContentRead isRoot name stream data children final) :
    ∃ token after, stream.next = (.ok token, after) := by
  cases read with
  | ended next => exact ⟨_, _, next⟩
  | closed next => exact ⟨_, _, next⟩
  | text next => exact ⟨_, _, next⟩
  | child next => exact ⟨_, _, next⟩

/-- Behind data in front of markup, reading goes on with the markup. -/
theorem ContentRead.behind_data {limit : Nat} {phase : Phase} (active : phase ≠ .finished)
    {lead text : Text} (plain : '<' ∉ lead) (markup : AtMarkup text) {offset : Nat}
    (read : ContentRead isRoot name ⟨⟨offset, lead ++ text⟩, limit, phase, none⟩ data children
      final) :
    ∃ place data children final,
      ContentRead isRoot name ⟨⟨place, text⟩, limit, .content, none⟩ data children final := by
  obtain ⟨place, ⟨_, same⟩ | next⟩ := next_lead limit active plain markup offset
  · exact ⟨place, _, _, _, read.of_next same.symm⟩
  · refine ⟨place, ?_⟩
    cases read with
    | ended other =>
      rw [next] at other
      cases other
    | closed other =>
      rw [next] at other
      cases other
    | text other rest =>
      rw [next] at other
      cases other
      exact ⟨_, _, _, rest⟩
    | child other =>
      rw [next] at other
      cases other

end

section

variable (limit : Nat)

/-- Only elements with start tags that fit are read inside an element. -/
def FitsWhenRead (element : Element) : Prop :=
  ∀ isRoot place rest data children final,
    ContentRead isRoot element.name
      (TokenStream.behind limit element.tag ⟨place, element.writtenInside ++ rest⟩) data children
        final →
    ∀ child, child ∈ element.children → child.TagsFit limit

theorem fits_of_contentRead_writtenAll {name : Text} {children : List Element}
    (writable : AllWritable children)
    (inside : ∀ child, child ∈ children → FitsWhenRead limit child)
    {phase : Phase} (active : phase ≠ .finished) {isRoot : Bool} {place : Nat} {rest data : Text}
    {found : List Element} {final : TokenStream}
    (read : ContentRead isRoot name
      ⟨⟨place, Element.writtenAll children ++ (writtenClosing name ++ rest)⟩, limit, phase, none⟩
      data found final) : ∀ child, child ∈ children → child.TagsFit limit := by
  induction children generalizing phase place data found with
  | nil => simp
  | cons child children ih =>
    have parts : Element.writtenAll (child :: children) ++ (writtenClosing name ++ rest)
        = child.startTag ++ (child.writtenInside
          ++ (Element.writtenAll children ++ (writtenClosing name ++ rest))) := by
      rw [Element.writtenAll, Element.written_eq, List.append_assoc, List.append_assoc]
    rw [parts] at read
    obtain ⟨here, others⟩ := List.forall_mem_cons.1 writable
    obtain ⟨own, behind⟩ := List.forall_mem_cons.1 inside
    have opens := Element.startTagText here.here
    obtain ⟨token, after, next⟩ := read.exists_next
    have opening := opens.fits_of_next active next
    obtain ⟨opened, next⟩ := opens.next limit opening active place
      (child.writtenInside ++ (Element.writtenAll children ++ (writtenClosing name ++ rest)))
    cases read with
    | ended other =>
      rw [next] at other
      cases other
    | closed other =>
      rw [next] at other
      cases other
    | text other =>
      rw [next] at other
      cases other
    | child other inner rest =>
      rw [next] at other
      cases other
      have fits : child.TagsFit limit := .intro opening (own _ _ _ _ _ _ inner)
      obtain ⟨middle, readBack⟩ := readsInside limit here fits false opened
        (Element.writtenAll children ++ (writtenClosing name ++ _))
      obtain ⟨_, _, rfl⟩ := inner.unique readBack
      exact List.forall_mem_cons.2 ⟨fits, ih others behind (by decide) rest⟩

/-- Reading a written element goes through its elements, so their start tags fit. -/
theorem fitsWhenRead {element : Element} (writable : element.Everywhere Element.Writable) :
    FitsWhenRead limit element := by
  induction writable with
  | @intro element here inside ih =>
    intro isRoot place rest data children final read
    cases single : element.selfClosing with
    | true =>
      rw [(here.single single).2]
      simp
    | false =>
      rw [behind_paired limit here single] at read
      obtain ⟨behind, cut, _⟩ := exists_bracket_behind_data element.children element.name rest
      obtain ⟨_, _, _, _, markup⟩ :=
        read.behind_data (by decide) here.data (Or.inr ⟨behind, cut⟩)
      exact fits_of_contentRead_writtenAll limit inside ih (by decide) markup

end

/-- A document that can be written is read back exactly if the start tags of its written form fit
into the window, and nothing else is ever read from it. -/
theorem ofText_written_eq_ok_iff {document : Document} (writable : document.Writable)
    (lookahead : Nat) (other : Document) :
    Document.ofText lookahead document.written = .ok other ↔
      document.root.TagsFit (max lookahead 1) ∧ other = document := by
  constructor
  · intro success
    have fits : document.root.TagsFit (max lookahead 1) := by
      obtain ⟨tag, stream, data, children, final, first, read, _⟩ := ofText_eq_ok_iff.1 success
      have opens := Element.startTagText writable.root.here
      rw [document.written_eq] at first
      have opening := opens.fits_of_first writable.prolog first
      obtain ⟨place, found⟩ := opens.first opening writable.prolog
        (document.root.writtenInside ++ document.epilogue)
      rw [found] at first
      obtain ⟨same, rfl⟩ := Prod.mk.inj first
      obtain ⟨_, rfl⟩ := Prod.mk.inj (Except.ok.inj same)
      exact .intro opening (fitsWhenRead _ writable.root _ _ _ _ _ _ read)
    rw [ofText_written_of_window writable fits] at success
    exact ⟨fits, (Except.ok.inj success).symm⟩
  · rintro ⟨fits, rfl⟩
    exact ofText_written_of_window writable fits

end MailMerge.Markup
