import MailMerge.Proofs.Markup.RoundTrip
import Mathlib.Data.List.DropRight

set_option autoImplicit false

namespace MailMerge.Markup

/-- A start tag that is read back as it is written. -/
structure StartTag.Writable (tag : StartTag) : Prop where
  name : IsName tag.name
  attributes : ∀ attr, attr ∈ tag.attributes → attr.Writable

theorem AttributeText.writable {attr : Attribute} {text : Text} (own : AttributeText attr text) :
    attr.Writable := by
  cases own with
  | intro isName _ _ unquoted => exact ⟨isName, unquoted⟩

theorem TagEndText.writable {attributes : List Attribute} {closed : Bool} {text : Text}
    (inside : TagEndText attributes closed text) : ∀ attr, attr ∈ attributes → attr.Writable := by
  induction inside with
  | nil => simp
  | cons _ first _ ih => exact List.forall_mem_cons.2 ⟨first.writable, ih⟩

theorem StartTagText.writable {tag : StartTag} {text : Text} (start : StartTagText tag text) :
    tag.Writable := by
  cases start with
  | intro isName _ inside => exact ⟨isName, inside.writable⟩

/-- What is read of an element's content, by the stream in front of it. -/
structure ContentWritable (stream : TokenStream) (data : Text) (children : List Element) :
    Prop where
  plain : '<' ∉ data
  inside : ∀ child, child ∈ children → child.Everywhere Element.Writable
  mixed : children ≠ [] → NotBlank data
  behindTag : stream.phase = .afterEndTag → NotBlank data
  /-- Behind a single tag comes its end tag. -/
  owing : stream.owed ≠ none → data = [] ∧ children = []
  /-- A bracket that begins no start tag begins the end tag. -/
  noChild : AtMarkup stream.rest → TokenStream.beginsStartTag stream.rest = false → children = []

theorem contentWritable_nil (stream : TokenStream) : ContentWritable stream [] [] :=
  ⟨by simp, by simp, fun _ => Or.inl rfl, fun _ => Or.inl rfl, fun _ => ⟨rfl, rfl⟩,
    fun _ _ => rfl⟩

theorem phase_of_contentRead {isRoot : Bool} {name data : Text} {stream final : TokenStream}
    {children : List Element} (read : ContentRead isRoot name stream data children final)
    (inner : isRoot = false) : final.phase = .afterEndTag := by
  induction read with
  | ended next => cases inner
  | closed next =>
    cases tokenRead_of_next next with
    | owed => rfl
    | closing => rfl
  | text next rest ih => exact ih inner
  | child next innerRead rest _ ih => exact ih inner

theorem NotBlank.of_filled {piece : Text} (filled : Filled piece) (data : Text) :
    NotBlank (piece ++ data) := by
  obtain ⟨c, member, other⟩ := filled
  exact Or.inr ⟨c, List.mem_append_left data member, other⟩

/-- A start tag and what was read behind it make an element that can be written. -/
theorem everywhere_writable_ofTag {tag : StartTag} (writable : tag.Writable) {limit : Nat}
    {place : Reader} {data : Text} {children : List Element}
    (content : ContentWritable (.behind limit tag place) data children) :
    (Element.ofTag tag data children).Everywhere Element.Writable := by
  have single : tag.selfClosing = true → data = [] ∧ children = [] := by
    intro closed
    apply content.owing
    simp [TokenStream.behind, closed]
  exact .intro ⟨writable.name, writable.attributes, content.plain, content.mixed, single⟩
    content.inside

theorem contentWritable_of_contentRead {isRoot : Bool} {name data : Text}
    {stream final : TokenStream} {children : List Element}
    (read : ContentRead isRoot name stream data children final) :
    ContentWritable stream data children := by
  induction read with
  | ended next => exact contentWritable_nil _
  | closed next => exact contentWritable_nil _
  | @text isRoot name piece data children stream after final next rest ih =>
    cases tokenRead_of_next next with
    | data owes _ _ notMarkup plain behindTag stops apart =>
      have mixed : children ≠ [] → Filled piece := by
        intro filled
        refine apart.resolve_right fun noStart => ?_
        exact filled (ih.noChild stops noStart)
      exact {
        plain := fun bracket => (List.mem_append.1 bracket).elim plain ih.plain
        inside := ih.inside
        mixed := fun filled => .of_filled (mixed filled) data
        behindTag := fun phase => .of_filled (behindTag phase) data
        owing := fun owing => absurd owes owing
        noChild := fun markup => absurd markup notMarkup }
  | child next inner rest innerRead restRead =>
    -- What is read behind the child begins behind its end tag, where leading space is passed over.
    have phase := phase_of_contentRead inner rfl
    cases tokenRead_of_next next with
    | opening owes blank opens _ consumed =>
      exact {
        plain := restRead.plain
        inside := List.forall_mem_cons.2 ⟨everywhere_writable_ofTag opens.writable innerRead,
          restRead.inside⟩
        mixed := fun _ => restRead.behindTag phase
        behindTag := fun _ => restRead.behindTag phase
        owing := fun owing => absurd owes owing
        noChild := by
          intro markup noStart
          rw [consumed] at markup noStart
          rw [eq_nil_of_atMarkup blank markup, List.nil_append, opens.beginsStartTag] at noStart
          cases noStart }

/-- The first start tag that was read is the first one of the text. -/
theorem first_eq_ok {lookahead : Nat} {text prolog : Text} {tag : StartTag} {stream : TokenStream}
    (success : (TokenStream.ofText lookahead text).first = (.ok (prolog, tag), stream)) :
    ∃ opening place, NoStartTag prolog ∧ StartTagText tag opening ∧
      Text.byteLength opening ≤ max lookahead 1 ∧ text = prolog ++ (opening ++ place.rest) ∧
      stream = .behind (max lookahead 1) tag place := by
  rw [TokenStream.first] at success
  dsimp only at success
  split at success
  · cases success
  · rename_i before found cut
    split at success
    · rename_i opened
      cases success
      obtain ⟨whole, noStart, begins⟩ := cutAtStartTag?_eq_some cut
      obtain ⟨opening, place, opens, fits, consumed, rfl⟩ := openTag_eq_ok rfl begins opened
      refine ⟨opening, place, noStart, opens, fits, ?_, rfl⟩
      rw [← show found = opening ++ place.rest from consumed, ← whole]
      rfl
    · cases success

/-- A document that was read is read back as it is written. -/
theorem writable_of_ofText {lookahead : Nat} {text : Text} {document : Document}
    (success : Document.ofText lookahead text = .ok document) : document.Writable := by
  obtain ⟨tag, stream, data, children, final, first, read, root, _⟩ := ofText_eq_ok_iff.1 success
  obtain ⟨_, _, noStart, opens, _, _, rfl⟩ := first_eq_ok first
  refine ⟨noStart, ?_⟩
  rw [root]
  exact everywhere_writable_ofTag opens.writable (contentWritable_of_contentRead read)

theorem writable_of_ofBytes {lookahead : Nat} {bytes : List UInt8} {document : Document}
    (success : Document.ofBytes lookahead bytes = .ok document) : document.Writable := by
  unfold Document.ofBytes at success
  split at success
  · exact writable_of_ofText success
  · cases success

end MailMerge.Markup
