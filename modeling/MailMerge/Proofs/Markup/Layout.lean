import MailMerge.Proofs.Markup.Parsed

set_option autoImplicit false

namespace MailMerge.Markup

/-- A start tag as it is written: one space in front of each attribute and no other space. -/
def StartTag.written (tag : StartTag) : Text :=
  writtenOpening tag.name tag.attributes ++ tagEnd tag.selfClosing

theorem StartTag.startTagText {tag : StartTag} (writable : (Element.ofTag tag [] []).Writable) :
    StartTagText tag tag.written := by
  have opens := Element.startTagText writable
  rwa [Element.startTag, Element.isSingle_eq writable] at opens

/-- What lies inside an element, in the order of the text: pieces of data, and elements with the
texts of their tags. A single tag has nothing inside, and its end tag takes no text. -/
inductive Layout where
  | nil
  | text (piece : Text) (rest : Layout)
  | element (tag : StartTag) (opening : Text) (inside : Layout) (closing : Text) (rest : Layout)
  deriving Repr, DecidableEq

namespace Layout

def written : Layout → Text
  | nil => []
  | text piece rest => piece ++ rest.written
  | element _ opening inside closing rest =>
    opening ++ (inside.written ++ (closing ++ rest.written))

def beginsElement : Layout → Bool
  | element .. => true
  | _ => false

def beginsText : Layout → Bool
  | text .. => true
  | _ => false

/-- The data that is kept of the pieces, but for those inside of elements. -/
def keptData (behindTag : Bool) : Layout → Text
  | nil => []
  | text piece rest => keptPiece behindTag rest.beginsElement piece ++ rest.keptData false
  | element _ _ _ _ rest => rest.keptData true

def children : Layout → List Element
  | nil => []
  | text _ rest => rest.children
  | element tag _ inside _ rest =>
    .ofTag tag (inside.keptData false) inside.children :: rest.children

/-- Every start tag takes at most so many bytes. -/
def Fits (limit : Nat) : Layout → Prop
  | nil => True
  | text _ rest => rest.Fits limit
  | element _ opening inside _ rest =>
    Text.byteLength opening ≤ limit ∧ inside.Fits limit ∧ rest.Fits limit

instance decideFits (limit : Nat) : (layout : Layout) → Decidable (layout.Fits limit)
  | nil => isTrue trivial
  | text _ rest => decideFits limit rest
  | element _ opening inside _ rest =>
    have := decideFits limit inside
    have := decideFits limit rest
    inferInstanceAs (Decidable (Text.byteLength opening ≤ limit ∧ _ ∧ _))

/-- The pieces are what the layout says that they are: data that goes from tag to tag, and the tags
of elements. -/
inductive Valid : Layout → Prop
  | nil : Valid nil
  | text {piece : Text} {rest : Layout} (filled : piece ≠ []) (plain : '<' ∉ piece)
      (whole : rest.beginsText = false) (others : rest.Valid) : Valid (text piece rest)
  | single {tag : StartTag} {opening : Text} {rest : Layout} (opens : StartTagText tag opening)
      (closed : tag.selfClosing = true) (others : rest.Valid) :
      Valid (element tag opening nil [] rest)
  | paired {tag : StartTag} {opening closing : Text} {inside rest : Layout}
      (opens : StartTagText tag opening) (unclosed : tag.selfClosing = false)
      (content : inside.Valid) (closes : EndTagText tag.name closing) (others : rest.Valid) :
      Valid (element tag opening inside closing rest)

/-- From any place in front of a text, reading gives data and children and ends as `left` says. -/
def Reads (limit : Nat) (isRoot : Bool) (name : Text) (phase : Phase) (text data : Text)
    (children : List Element) (left : TokenStream → Prop) : Prop :=
  ∀ place, ∃ final,
    ContentRead isRoot name ⟨⟨place, text⟩, limit, phase, none⟩ data children final ∧ left final

/-- The stream behind an end tag. -/
def BehindEndTag (limit : Nat) (rest : Text) (final : TokenStream) : Prop :=
  ∃ place, final = ⟨⟨place, rest⟩, limit, .afterEndTag, none⟩

/-- A text at which the content of an element ends. -/
structure Ends (limit : Nat) (isRoot : Bool) (name text : Text) (left : TokenStream → Prop) :
    Prop where
  markup : AtMarkup text
  noStart : TokenStream.beginsStartTag text = false
  reads : ∀ phase, phase ≠ .finished → Reads limit isRoot name phase text [] [] left

section

variable {limit : Nat} {isRoot : Bool} {name ending : Text} {left : TokenStream → Prop}

/-- The content of an element ends at its end tag. -/
theorem ends_closing {closing : Text} (closes : EndTagText name closing) (rest : Text) :
    Ends limit isRoot name (closing ++ rest) (BehindEndTag limit rest) where
  markup := closes.atMarkup rest
  noStart := by
    cases closes with
    | intro => rfl
  reads phase active place := by
    obtain ⟨behind, next⟩ := closes.next limit active place rest
    exact ⟨_, .closed next, behind, rfl⟩

/-- The content of the root may end with the text. -/
theorem ends_nil : Ends limit true name [] fun final => final.rest = [] where
  markup := Or.inl rfl
  noStart := rfl
  reads _ active place := ⟨_, .ended (next_of_atMarkup limit active (Or.inl rfl) place), rfl⟩

/-- A layout that begins with no data begins with markup, and so does what stands behind it. -/
theorem Valid.atMarkup {layout : Layout} (valid : layout.Valid)
    (whole : layout.beginsText = false) (markup : AtMarkup ending)
    (noStart : TokenStream.beginsStartTag ending = false) :
    AtMarkup (layout.written ++ ending) ∧
      TokenStream.beginsStartTag (layout.written ++ ending) = layout.beginsElement := by
  cases valid with
  | nil => exact ⟨markup, noStart⟩
  | text => cases whole
  | single opens | paired opens =>
    rw [written, List.append_assoc]
    exact ⟨opens.atMarkup _, opens.beginsStartTag _⟩

theorem reads_text {phase : Phase} {piece data : Text} {children : List Element}
    (active : phase ≠ .finished) (plain : '<' ∉ piece) (markup : AtMarkup ending)
    (reads : Reads limit isRoot name .content ending data children left) :
    Reads limit isRoot name phase (piece ++ ending)
      (keptPiece (phase = .afterEndTag) (TokenStream.beginsStartTag ending) piece ++ data) children
      left := by
  intro offset
  obtain ⟨place, ⟨nothing, same⟩ | next⟩ := next_lead limit active plain markup offset
  · obtain ⟨final, read, ended⟩ := reads place
    rw [nothing]
    exact ⟨final, read.of_next same, ended⟩
  · obtain ⟨final, read, ended⟩ := reads place
    exact ⟨final, .text next read, ended⟩

/-- What stands behind the start tag of an element is read up to its end tag. -/
def ReadsBehind (limit : Nat) (tag : StartTag) (inside closing : Text) (data : Text)
    (children : List Element) : Prop :=
  ∀ isRoot place rest, ∃ final,
    ContentRead isRoot tag.name
      (TokenStream.behind limit tag ⟨place, inside ++ (closing ++ rest)⟩) data children
      ⟨⟨final, rest⟩, limit, .afterEndTag, none⟩

theorem readsBehind_single (limit : Nat) {tag : StartTag} (closed : tag.selfClosing = true) :
    ReadsBehind limit tag [] [] [] [] := fun _ place _ =>
  ⟨place, .closed (next_behind_single limit closed _)⟩

theorem readsBehind_paired {tag : StartTag} (unclosed : tag.selfClosing = false)
    {inside closing data : Text} {children : List Element}
    (reads : ∀ isRoot rest, Reads limit isRoot tag.name .content (inside ++ (closing ++ rest)) data
      children (BehindEndTag limit rest)) :
    ReadsBehind limit tag inside closing data children := by
  intro isRoot place rest
  obtain ⟨_, read, final, rfl⟩ := reads isRoot rest place
  refine ⟨final, ?_⟩
  rw [TokenStream.behind, unclosed]
  exact read

theorem reads_element {phase : Phase} {tag : StartTag}
    {opening inside closing innerData data : Text} {innerChildren children : List Element}
    (active : phase ≠ .finished) (opens : StartTagText tag opening)
    (fits : Text.byteLength opening ≤ limit)
    (behind : ReadsBehind limit tag inside closing innerData innerChildren)
    (reads : Reads limit isRoot name .afterEndTag ending data children left) :
    Reads limit isRoot name phase (opening ++ (inside ++ (closing ++ ending))) data
      (.ofTag tag innerData innerChildren :: children) left := by
  intro offset
  obtain ⟨opened, next⟩ := opens.next limit fits active offset (inside ++ (closing ++ ending))
  obtain ⟨middle, own⟩ := behind false opened ending
  obtain ⟨final, read, ended⟩ := reads middle
  exact ⟨final, .child next own read, ended⟩

/-- What is laid out is read as the data that is kept of it and its elements. -/
theorem Valid.reads {layout : Layout} (valid : layout.Valid) (fits : layout.Fits limit)
    (ends : Ends limit isRoot name ending left) {phase : Phase} (active : phase ≠ .finished) :
    Reads limit isRoot name phase (layout.written ++ ending)
      (layout.keptData (phase = .afterEndTag)) layout.children left := by
  induction valid generalizing isRoot name ending left phase with
  | nil => exact ends.reads phase active
  | text filled plain whole others ih =>
    obtain ⟨markup, begins⟩ := others.atMarkup whole ends.markup ends.noStart
    have read := reads_text active plain markup (ih fits ends (by decide))
    rw [begins] at read
    rw [written, List.append_assoc]
    exact read
  | single opens closed others ih =>
    rw [written, List.append_assoc]
    exact reads_element active opens fits.1 (readsBehind_single limit closed)
      (ih fits.2.2 ends (by decide))
  | paired opens unclosed content closes others inside ih =>
    have behind := readsBehind_paired unclosed fun isRoot rest =>
      inside fits.2.1 (ends_closing closes rest) (show Phase.content ≠ .finished by decide)
    rw [written, List.append_assoc, List.append_assoc, List.append_assoc]
    exact reads_element active opens fits.1 behind (ih fits.2.2 ends (by decide))

theorem Valid.readsBehind {tag : StartTag} {opening closing : Text} {inside rest : Layout}
    (valid : (element tag opening inside closing rest).Valid) (fits : inside.Fits limit) :
    ReadsBehind limit tag inside.written closing (inside.keptData false) inside.children := by
  cases valid with
  | single opens closed => exact readsBehind_single limit closed
  | paired opens unclosed content closes =>
    exact readsBehind_paired unclosed fun isRoot rest =>
      content.reads fits (ends_closing closes rest) (show Phase.content ≠ .finished by decide)

theorem Valid.opens {tag : StartTag} {opening closing : Text} {inside rest : Layout}
    (valid : (element tag opening inside closing rest).Valid) : StartTagText tag opening := by
  cases valid with
  | single opens => exact opens
  | paired opens => exact opens

theorem Valid.parts {tag : StartTag} {opening closing : Text} {inside rest : Layout}
    (valid : (element tag opening inside closing rest).Valid) : inside.Valid ∧ rest.Valid := by
  cases valid with
  | single opens closed others => exact ⟨.nil, others⟩
  | paired opens unclosed content closes others => exact ⟨content, others⟩

/-- Anything can stand behind an element. -/
theorem Valid.with_rest {tag : StartTag} {opening closing : Text} {inside rest others : Layout}
    (valid : (element tag opening inside closing others).Valid) (behind : rest.Valid) :
    (element tag opening inside closing rest).Valid := by
  cases valid with
  | single opens closed => exact .single opens closed behind
  | paired opens unclosed content closes => exact .paired opens unclosed content closes behind

end

end Layout

/-- A document with a closed root, as it is laid out: the text in front of the root, the parts of
the root and the text behind it. -/
structure DocumentLayout where
  prolog : Text
  tag : StartTag
  opening : Text
  inside : Layout
  closing : Text
  epilogue : Text
  deriving Repr, DecidableEq

namespace DocumentLayout

def root (layout : DocumentLayout) : Layout :=
  .element layout.tag layout.opening layout.inside layout.closing .nil

def written (layout : DocumentLayout) : Text :=
  layout.prolog ++ (layout.root.written ++ layout.epilogue)

def document (layout : DocumentLayout) : Document :=
  ⟨layout.prolog, .ofTag layout.tag (layout.inside.keptData false) layout.inside.children,
    layout.epilogue⟩

/-- The parts are what the layout says that they are. -/
structure Valid (layout : DocumentLayout) : Prop where
  prolog : NoStartTag layout.prolog
  root : layout.root.Valid

theorem written_eq (layout : DocumentLayout) : layout.written = layout.prolog ++
    (layout.opening ++ (layout.inside.written ++ (layout.closing ++ layout.epilogue))) := by
  rw [written, root, Layout.written, Layout.written]
  simp

/-- A document that is laid out is read from its text. -/
theorem Valid.ofText_eq_ok {layout : DocumentLayout} (valid : layout.Valid) {lookahead : Nat}
    (fits : layout.root.Fits (max lookahead 1)) :
    Document.ofText lookahead layout.written = .ok layout.document := by
  have opens : StartTagText layout.tag layout.opening := valid.root.opens
  have behind : Layout.ReadsBehind (max lookahead 1) layout.tag layout.inside.written
      layout.closing (layout.inside.keptData false) layout.inside.children :=
    valid.root.readsBehind fits.2.1
  obtain ⟨place, first⟩ := opens.first fits.1 valid.prolog
    (layout.inside.written ++ (layout.closing ++ layout.epilogue))
  obtain ⟨final, read⟩ := behind true place layout.epilogue
  rw [written_eq]
  exact ofText_eq_ok_iff.2 ⟨layout.tag, _, _, _, _, first, read, rfl, rfl⟩

end DocumentLayout

/-- A root without its end tag is read up to the end of the text. -/
theorem ofText_unclosed {lookahead : Nat} {tag : StartTag} {prolog opening : Text}
    (noStart : NoStartTag prolog) (opens : StartTagText tag opening)
    (fits : Text.byteLength opening ≤ max lookahead 1) (unclosed : tag.selfClosing = false)
    {inside : Layout} (valid : inside.Valid) (insideFits : inside.Fits (max lookahead 1)) :
    Document.ofText lookahead (prolog ++ (opening ++ inside.written))
      = .ok ⟨prolog, .ofTag tag (inside.keptData false) inside.children, []⟩ := by
  obtain ⟨place, first⟩ := opens.first fits noStart inside.written
  have reads : Layout.Reads (max lookahead 1) true tag.name .content (inside.written ++ [])
      (inside.keptData false) inside.children fun final => final.rest = [] :=
    valid.reads insideFits Layout.ends_nil (by decide)
  rw [List.append_nil] at reads
  obtain ⟨final, read, ended⟩ := reads place
  rw [TokenStream.behind, unclosed] at first
  exact ofText_eq_ok_iff.2 ⟨tag, _, _, _, final, first, read, rfl, ended.symm⟩

end MailMerge.Markup
