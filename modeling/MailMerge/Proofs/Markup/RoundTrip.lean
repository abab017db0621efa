import MailMerge.Proofs.Markup.ContentRead
import MailMerge.Proofs.Markup.Tokens
import MailMerge.Proofs.Text.Utf8
import Mathlib.Data.List.TakeWhile

set_option autoImplicit false

namespace MailMerge.Markup

def Element.tag (element : Element) : StartTag :=
  ⟨element.name, element.attributes, element.selfClosing⟩

theorem Element.ofTag_tag (element : Element) :
    Element.ofTag element.tag element.data element.children = element := by
  cases element
  rfl

theorem Element.isSingle_eq {element : Element} (writable : element.Writable) :
    element.isSingle = element.selfClosing := by
  cases single : element.selfClosing with
  | false => simp [isSingle, single]
  | true =>
    obtain ⟨noData, noChildren⟩ := writable.single single
    simp [isSingle, single, noData, noChildren]

theorem attributeText_written {attr : Attribute} (writable : attr.Writable) :
    AttributeText attr (attr.name ++ '=' :: '"' :: (attr.value ++ ['"'])) :=
  .intro writable.name blank_nil blank_nil writable.value

theorem tagEndText_written {attributes : List Attribute}
    (writable : ∀ attr, attr ∈ attributes → attr.Writable) (closed : Bool) :
    TagEndText attributes closed (attributes.flatMap Attribute.written ++ tagEnd closed) := by
  induction attributes with
  | nil => exact .nil blank_nil
  | cons attr attributes ih =>
    have space : Blank [' '] := by
      intro c member
      rw [List.mem_singleton.1 member]
      decide
    have others := ih fun other member => writable other (List.mem_cons_of_mem _ member)
    have whole := TagEndText.cons space (attributeText_written (writable attr (by simp))) others
    simpa [Attribute.written] using whole

/-- Behind a name stands an attribute or the end of the tag. -/
theorem stops_written (attributes : List Attribute) (closed : Bool) :
    Stops isNameChar (attributes.flatMap Attribute.written ++ tagEnd closed) := by
  cases attributes with
  | nil => cases closed <;> exact stops_cons (by decide)
  | cons attr attributes => exact stops_cons (by decide)

theorem Element.startTagText {element : Element} (writable : element.Writable) :
    StartTagText element.tag element.startTag := by
  have inside := tagEndText_written writable.attributes element.selfClosing
  have whole : StartTagText element.tag ('<' :: (element.name ++
      (element.attributes.flatMap Attribute.written ++ tagEnd element.selfClosing))) :=
    .intro writable.name (stops_written _ _) inside
  rw [Element.startTag, Element.isSingle_eq writable, writtenOpening, List.append_assoc]
  exact whole

theorem endTagText_written {name : Text} (isName : IsName name) :
    EndTagText name (writtenClosing name) :=
  .intro isName blank_nil

section

variable (limit : Nat) {phase : Phase}

theorem next_data {data : Text} (filled : data ≠ []) (plain : '<' ∉ data) {rest : Text}
    (apart : NotBlank data ∨ TokenStream.beginsStartTag ('<' :: rest) = false) (offset : Nat) :
    ∃ behind, (⟨⟨offset, data ++ '<' :: rest⟩, limit, .content, none⟩ : TokenStream).next
      = (.ok (some (.data data)), ⟨⟨behind, '<' :: rest⟩, limit, .content, none⟩) := by
  obtain ⟨place, ⟨blank, skips, _⟩ | ⟨_, _, token⟩⟩ :=
    tokenAt_lead plain (Or.inr ⟨rest, rfl⟩) offset
      ⟨⟨offset, data ++ '<' :: rest⟩, limit, .content, none⟩
  · -- Space in front of a start tag is neither filled nor apart from it.
    have begins := skips.resolve_left filled
    rcases apart with (empty | ⟨c, member, other⟩) | noStart
    · exact absurd empty filled
    · rw [blank c member] at other
      cases other
    · rw [noStart] at begins
      cases begins
  · exact ⟨place, token⟩

/-- What is written inside an element is read as its data and its children. -/
def ReadsInside (limit : Nat) (element : Element) : Prop :=
  ∀ isRoot place rest, ∃ final,
    ContentRead isRoot element.name
      (TokenStream.behind limit element.tag ⟨place, element.writtenInside ++ rest⟩)
      element.data element.children ⟨⟨final, rest⟩, limit, .afterEndTag, none⟩

/-- The children of an element are read one after the other, and then its end tag. -/
theorem contentRead_writtenAll {name : Text} (isName : IsName name) {children : List Element}
    (writable : ∀ child, child ∈ children → child.Writable)
    (fits : ∀ child, child ∈ children → Text.byteLength child.startTag ≤ limit)
    (inside : ∀ child, child ∈ children → ReadsInside limit child)
    (active : phase ≠ .finished) (isRoot : Bool) (place : Nat) (rest : Text) :
    ∃ final, ContentRead isRoot name
      ⟨⟨place, Element.writtenAll children ++ (writtenClosing name ++ rest)⟩, limit, phase, none⟩
      [] children ⟨⟨final, rest⟩, limit, .afterEndTag, none⟩ := by
  induction children generalizing phase place with
  | nil =>
    obtain ⟨final, next⟩ := (endTagText_written isName).next limit active place rest
    exact ⟨final, .closed next⟩
  | cons child children ih =>
    have behind : ∀ others, Element.writtenAll (child :: children) ++ others
        = child.startTag ++ (child.writtenInside ++ (Element.writtenAll children ++ others)) := by
      intro others
      rw [Element.writtenAll, Element.written_eq, List.append_assoc, List.append_assoc]
    have opens := Element.startTagText (writable child (by simp))
    obtain ⟨opened, next⟩ := opens.next limit (fits child (by simp)) active place
      (child.writtenInside ++ (Element.writtenAll children ++ (writtenClosing name ++ rest)))
    obtain ⟨middle, own⟩ := inside child (by simp) false opened
      (Element.writtenAll children ++ (writtenClosing name ++ rest))
    obtain ⟨final, others⟩ := ih
      (fun other member => writable other (List.mem_cons_of_mem _ member))
      (fun other member => fits other (List.mem_cons_of_mem _ member))
      (fun other member => inside other (List.mem_cons_of_mem _ member))
      (show Phase.afterEndTag ≠ .finished by decide) middle
    rw [behind]
    have read := ContentRead.child next own others
    rw [Element.ofTag_tag] at read
    exact ⟨final, read⟩

/-- Behind an element's data stands the start tag of a child or, without children, an end tag. -/
theorem exists_bracket_behind_data (children : List Element) (name rest : Text) :
    ∃ behind, Element.writtenAll children ++ (writtenClosing name ++ rest) = '<' :: behind ∧
      (children = [] → TokenStream.beginsStartTag ('<' :: behind) = false) := by
  cases children with
  | nil => exact ⟨'/' :: name ++ ['>'] ++ rest, rfl, fun _ => rfl⟩
  | cons child others =>
    rw [Element.writtenAll, Element.written_eq, Element.startTag, writtenOpening]
    exact ⟨_, rfl, fun empty => by cases empty⟩

/-- Data in front of markup is read as one token, or as none if it is empty. -/
theorem contentRead_data {isRoot : Bool} {name data rest : Text} {children : List Element}
    {left : Nat → TokenStream} (plain : '<' ∉ data)
    (apart : NotBlank data ∨ TokenStream.beginsStartTag ('<' :: rest) = false)
    (behind : ∀ place, ∃ final, ContentRead isRoot name
      ⟨⟨place, '<' :: rest⟩, limit, .content, none⟩ [] children (left final)) (place : Nat) :
    ∃ final, ContentRead isRoot name
      ⟨⟨place, data ++ '<' :: rest⟩, limit, .content, none⟩ data children (left final) := by
  by_cases filled : data = []
  · rw [filled]
    exact behind place
  · obtain ⟨next, token⟩ := next_data limit filled plain apart place
    obtain ⟨final, read⟩ := behind next
    have whole := ContentRead.text token read
    rw [List.append_nil] at whole
    exact ⟨final, whole⟩

/-- Behind a start tag that is not a single tag come the data, the children and an end tag. -/
theorem behind_paired {element : Element} (writable : element.Writable)
    (unclosed : element.selfClosing = false) (place : Nat) (rest : Text) :
    TokenStream.behind limit element.tag ⟨place, element.writtenInside ++ rest⟩
      = ⟨⟨place, element.data ++ (Element.writtenAll element.children
          ++ (writtenClosing element.name ++ rest))⟩, limit, .content, none⟩ := by
  have whole : element.writtenInside
      = element.data ++ (Element.writtenAll element.children ++ writtenClosing element.name) := by
    rw [Element.writtenInside, Element.isSingle_eq writable, unclosed]
    rfl
  rw [TokenStream.behind, Element.tag, unclosed, whole]
  simp

/-- An element whose children are read back is read back. -/
theorem readsInside_of_children {element : Element} (writable : element.Writable)
    (children : ∀ child, child ∈ element.children → child.Writable)
    (fits : ∀ child, child ∈ element.children → Text.byteLength child.startTag ≤ limit)
    (inside : ∀ child, child ∈ element.children → ReadsInside limit child) :
    ReadsInside limit element := by
  intro isRoot place rest
  have isSingle := Element.isSingle_eq writable
  cases single : element.selfClosing with
  | true =>
    obtain ⟨noData, noChildren⟩ := writable.single single
    have next := next_behind_single limit (show element.tag.selfClosing = true from single)
      ⟨place, element.writtenInside ++ rest⟩
    rw [noData, noChildren]
    rw [Element.writtenInside, isSingle, if_pos single] at next ⊢
    exact ⟨place, .closed next⟩
  | false =>
    obtain ⟨behind, cut, noStart⟩ := exists_bracket_behind_data element.children element.name rest
    have apart : NotBlank element.data ∨ TokenStream.beginsStartTag ('<' :: behind) = false := by
      by_cases childless : element.children = []
      · exact Or.inr (noStart childless)
      · exact Or.inl (writable.mixed childless)
    have others := contentRead_writtenAll limit writable.name children fits inside
      (show Phase.content ≠ .finished by decide) isRoot
    rw [behind_paired limit writable single, cut]
    exact contentRead_data limit writable.data apart (fun next => cut ▸ others next rest) place

/-- Every element of a tree is read back. -/
theorem readsInside {element : Element} (writable : element.Everywhere Element.Writable)
    (fits : element.TagsFit limit) : ReadsInside limit element := by
  induction writable with
  | intro here inside ih =>
    exact readsInside_of_children limit here (fun child member => (inside child member).here)
      (fun child member => (fits.inside member).here)
      (fun child member => ih child member (fits.inside member))

end

/-- What is found begins with a bracket, so a bracket right in front of it begins no start tag. -/
theorem beginsStartTag_in_front {c : Char} {prolog found : Text}
    (noStart : NoStartTag (c :: prolog)) (begins : TokenStream.beginsStartTag found = true) :
    TokenStream.beginsStartTag (c :: (prolog ++ found)) = false := by
  by_cases bracket : c = '<'
  · rw [bracket] at noStart ⊢
    cases prolog with
    | nil =>
      obtain ⟨d, behind, opened, _⟩ := exists_bracket_of_beginsStartTag begins
      rw [opened]
      rfl
    | cons d behind => exact noStart [] d behind rfl
  · simp [TokenStream.beginsStartTag, bracket]

/-- The first start tag behind a text without one is found. -/
theorem cutAtStartTag?_append {prolog found : Text} (noStart : NoStartTag prolog)
    (begins : TokenStream.beginsStartTag found = true) :
    TokenStream.cutAtStartTag? (prolog ++ found) = some (prolog, found) := by
  induction prolog with
  | nil =>
    cases found with
    | nil => cases begins
    | cons c rest => rw [List.nil_append, TokenStream.cutAtStartTag?, if_pos begins]
  | cons c prolog ih =>
    have rest : NoStartTag prolog := by
      intro front d behind split
      exact noStart (c :: front) d behind (by rw [split, List.cons_append])
    have here := beginsStartTag_in_front noStart begins
    rw [List.cons_append, TokenStream.cutAtStartTag?, here, ih rest]
    rfl

/-- A text is cut into one without start tags and one that begins with one. -/
theorem cutAtStartTag?_eq_some {text prolog found : Text}
    (cut : TokenStream.cutAtStartTag? text = some (prolog, found)) :
    text = prolog ++ found ∧ NoStartTag prolog ∧ TokenStream.beginsStartTag found = true := by
  induction text generalizing prolog with
  | nil => cases cut
  | cons c rest ih =>
    rw [TokenStream.cutAtStartTag?] at cut
    split at cut
    · rename_i begins
      cases cut
      exact ⟨rfl, fun front d behind split => by simp at split, begins⟩
    · rename_i noStart
      obtain ⟨⟨before, behind⟩, inner, same⟩ := Option.map_eq_some_iff.1 cut
      cases same
      obtain ⟨whole, others, begins⟩ := ih inner
      refine ⟨by rw [whole, List.cons_append], ?_, begins⟩
      intro front d behind split
      cases front with
      | nil =>
        obtain ⟨rfl, rfl⟩ := List.cons.inj split
        rw [whole] at noStart
        simpa [TokenStream.beginsStartTag] using noStart
      | cons first front => exact others front d behind (List.cons.inj split).2

theorem noStartTag_iff {text : Text} :
    NoStartTag text ↔ TokenStream.cutAtStartTag? text = none := by
  constructor
  · intro noStart
    cases cut : TokenStream.cutAtStartTag? text with
    | none => rfl
    | some found =>
      obtain ⟨whole, _, begins⟩ := cutAtStartTag?_eq_some cut
      obtain ⟨c, behind, opened, name⟩ := exists_bracket_of_beginsStartTag begins
      rw [opened] at whole
      rw [noStart found.1 c behind whole] at name
      cases name
  · intro absent front c behind split
    induction front generalizing text with
    | nil =>
      rw [split, List.nil_append, TokenStream.cutAtStartTag?] at absent
      by_contra name
      rw [if_pos (by simpa [TokenStream.beginsStartTag] using name)] at absent
      cases absent
    | cons first front ih =>
      rw [split, List.cons_append, TokenStream.cutAtStartTag?] at absent
      by_cases begins : TokenStream.beginsStartTag (first :: (front ++ '<' :: c :: behind)) = true
      · rw [if_pos begins] at absent
        cases absent
      · rw [if_neg begins, Option.map_eq_none_iff] at absent
        exact ih absent rfl

instance (text : Text) : Decidable (NoStartTag text) := decidable_of_iff' _ noStartTag_iff

theorem Element.TagsFit.max_left {element : Element} {limit : Nat} (fits : element.TagsFit limit)
    (other : Nat) : element.TagsFit (max limit other) := by
  induction fits with
  | intro here _ ih => exact .intro (by omega) ih

/-- The first start tag of a text is read, if it fits into the window. -/
theorem StartTagText.first {tag : StartTag} {opening : Text} (opens : StartTagText tag opening)
    {lookahead : Nat} (fits : Text.byteLength opening ≤ max lookahead 1) {prolog : Text}
    (noStart : NoStartTag prolog) (rest : Text) :
    ∃ place, (TokenStream.ofText lookahead (prolog ++ (opening ++ rest))).first
      = (.ok (prolog, tag), TokenStream.behind (max lookahead 1) tag ⟨place, rest⟩) := by
  have cut := cutAtStartTag?_append noStart (opens.beginsStartTag rest)
  obtain ⟨place, opened⟩ := opens.openTag (max lookahead 1) fits .content
    (Text.byteLength prolog) rest ⟨0, prolog ++ (opening ++ rest)⟩
  refine ⟨place, ?_⟩
  rw [TokenStream.first]
  simp only [TokenStream.ofText, Reader.ofText, cut, Nat.zero_add, opened]

theorem Document.written_eq (document : Document) :
    document.written = document.prolog
      ++ (document.root.startTag ++ (document.root.writtenInside ++ document.epilogue)) := by
  rw [Document.written, Element.written_eq, List.append_assoc, List.append_assoc]

/-- A written document whose start tags fit into the window is read back. -/
theorem ofText_written_of_window {document : Document} (writable : document.Writable)
    {lookahead : Nat} (fits : document.root.TagsFit (max lookahead 1)) :
    Document.ofText lookahead document.written = .ok document := by
  have opens := Element.startTagText writable.root.here
  obtain ⟨place, first⟩ := opens.first fits.here writable.prolog
    (document.root.writtenInside ++ document.epilogue)
  rw [← document.written_eq] at first
  obtain ⟨final, inside⟩ := readsInside (max lookahead 1) writable.root fits true place
    document.epilogue
  exact ofText_eq_ok_iff.2 ⟨document.root.tag, _, document.root.data, document.root.children, _,
    first, inside, (Element.ofTag_tag document.root).symm, rfl⟩

theorem ofText_written {document : Document} (writable : document.Writable) {lookahead : Nat}
    (fits : document.root.TagsFit lookahead) :
    Document.ofText lookahead document.written = .ok document :=
  ofText_written_of_window writable (fits.max_left 1)

/-- Reading the bytes of a text is reading the text. -/
theorem ofBytes_bytes (lookahead : Nat) (text : Text) :
    Document.ofBytes lookahead (Text.bytes text) = Document.ofText lookahead text := by
  rw [Document.ofBytes, Utf8.decode_bytes]

/-- Reading the bytes of a document is reading its written form. -/
theorem ofBytes_toBytes_eq (lookahead : Nat) (document : Document) :
    Document.ofBytes lookahead document.toBytes = Document.ofText lookahead document.written :=
  ofBytes_bytes lookahead document.written

/-- A document that is written is read back as it was: the text around the root, every element with
its attributes in order, its data and its children, and which elements were single tags. -/
theorem ofBytes_toBytes {document : Document} (writable : document.Writable) {lookahead : Nat}
    (fits : document.root.TagsFit lookahead) :
    Document.ofBytes lookahead document.toBytes = .ok document := by
  rw [ofBytes_toBytes_eq]
  exact ofText_written writable fits

/-- A declaration with a stray bracket, brackets in an attribute, data beside a single tag and an
element of nothing but space, and an epilogue that looks like more of the tree. -/
theorem odd_document_read_back :
    let document : Document := ⟨['<', '?', 'x', '?', '>', '\n', '<', ' '],
      ⟨['w', ':', 'p'], [⟨['a', '-', '1'], ['<', 'b', '>', '&', '\'']⟩, ⟨['é'], []⟩],
        [' ', 'm', '>', '&'],
        [⟨['b'], [], [], [], true⟩, ⟨['c'], [], ['\n', ' '], [], false⟩], false⟩,
      ['<', '/', 'w', ':', 'p', '>', '<', 'b']⟩
    document.Writable ∧ document.root.TagsFit 23 ∧
      Document.ofBytes 23 document.toBytes = .ok document := by
  intro document
  have writable : document.Writable := ⟨by decide, by decide⟩
  have fits : document.root.TagsFit 23 := by decide
  exact ⟨writable, fits, ofBytes_toBytes writable fits⟩

end MailMerge.Markup
