import MailMerge.Proofs.Markup.Layout

set_option autoImplicit false

namespace MailMerge.Markup

mutual

/-- An element: a single tag, or a start tag, content and an end tag with the same name. A start tag
takes at most `limit` bytes. Trees stand here without their data. -/
inductive ElementText (limit : Nat) : Element → Text → Prop
  | single {tag : StartTag} {opening : Text} (opens : StartTagText tag opening)
      (fits : Text.byteLength opening ≤ limit) (closed : tag.selfClosing = true) :
      ElementText limit (.ofTag tag [] []) opening
  | paired {tag : StartTag} {children : List Element} {opening inside closing : Text}
      (opens : StartTagText tag opening) (fits : Text.byteLength opening ≤ limit)
      (unclosed : tag.selfClosing = false) (content : ContentText limit children inside)
      (closes : EndTagText tag.name closing) :
      ElementText limit (.ofTag tag [] children) (opening ++ (inside ++ closing))

/-- The content of an element: elements, with text around them that holds no angle bracket. -/
inductive ContentText (limit : Nat) : List Element → Text → Prop
  | nil : ContentText limit [] []
  | data {children : List Element} {piece rest : Text} (plain : '<' ∉ piece)
      (others : ContentText limit children rest) : ContentText limit children (piece ++ rest)
  | element {child : Element} {children : List Element} {own rest : Text}
      (first : ElementText limit child own) (others : ContentText limit children rest) :
      ContentText limit (child :: children) (own ++ rest)

end

/-- The root with what follows it. The root alone may lack its end tag, and then nothing follows. -/
inductive RootText (limit : Nat) : Element → Text → Text → Prop
  | closed {root : Element} {own epilogue : Text} (whole : ElementText limit root own) :
      RootText limit root (own ++ epilogue) epilogue
  | unclosed {tag : StartTag} {children : List Element} {opening inside : Text}
      (opens : StartTagText tag opening) (fits : Text.byteLength opening ≤ limit)
      (unclosed : tag.selfClosing = false) (content : ContentText limit children inside) :
      RootText limit (.ofTag tag [] children) (opening ++ inside) []

mutual

/-- A tree without its data. -/
def Element.shape : Element → Element
  | ⟨name, attributes, _, children, selfClosing⟩ =>
    ⟨name, attributes, [], shapes children, selfClosing⟩

def Element.shapes : List Element → List Element
  | [] => []
  | element :: rest => element.shape :: shapes rest

end

theorem Element.shapes_eq_map (elements : List Element) : shapes elements = elements.map shape := by
  induction elements with
  | nil => rfl
  | cons element rest ih => rw [shapes, ih, List.map_cons]

theorem Element.shape_ofTag (tag : StartTag) (data : Text) (children : List Element) :
    (Element.ofTag tag data children).shape = .ofTag tag [] (children.map shape) := by
  rw [ofTag, shape, shapes_eq_map, ofTag]

/-- A text is a document with these parts: its root begins with the first start tag. -/
inductive DocumentText (limit : Nat) (prolog : Text) (root : Element) (epilogue : Text) :
    Text → Prop
  | intro {found : Text} (noStart : NoStartTag prolog)
      (whole : RootText limit root found epilogue) :
      DocumentText limit prolog root epilogue (prolog ++ found)

/-- How the content of an element is found at the front of a text, and what is left of it. -/
inductive ContentEnds (limit : Nat) (isRoot : Bool) (name : Text) (children : List Element) :
    Text → TokenStream → Prop
  | closed {inside closing : Text} {place : Reader} (content : ContentText limit children inside)
      (closes : EndTagText name closing) :
      ContentEnds limit isRoot name children (inside ++ (closing ++ place.rest))
        ⟨place, limit, .afterEndTag, none⟩
  | unclosed {inside : Text} {final : TokenStream} (root : isRoot = true)
      (content : ContentText limit children inside) (ended : final.rest = []) :
      ContentEnds limit isRoot name children inside final

theorem not_mem_of_blank {space : Text} (blank : Blank space) : '<' ∉ space := fun bracket =>
  absurd (blank '<' bracket) (by decide)

section

variable {limit : Nat} {isRoot : Bool} {name : Text} {children : List Element} {text : Text}
  {final : TokenStream}

theorem ContentEnds.data {piece : Text} (plain : '<' ∉ piece)
    (ends : ContentEnds limit isRoot name children text final) :
    ContentEnds limit isRoot name children (piece ++ text) final := by
  cases ends with
  | closed content closes =>
    rw [← List.append_assoc]
    exact .closed (.data plain content) closes
  | unclosed root content ended => exact .unclosed root (.data plain content) ended

theorem ContentEnds.element {child : Element} {own : Text} (first : ElementText limit child own)
    (ends : ContentEnds limit isRoot name children text final) :
    ContentEnds limit isRoot name (child :: children) (own ++ text) final := by
  cases ends with
  | closed content closes =>
    rw [← List.append_assoc]
    exact .closed (.element first content) closes
  | unclosed root content ended => exact .unclosed root (.element first content) ended

/-- Only the root may lack its end tag. -/
theorem ContentEnds.inner (ends : ContentEnds limit false name children text final) :
    ∃ inside closing place, ContentText limit children inside ∧ EndTagText name closing ∧
      text = inside ++ (closing ++ place.rest) ∧ final = ⟨place, limit, .afterEndTag, none⟩ := by
  cases ends with
  | closed content closes => exact ⟨_, _, _, content, closes, rfl, rfl⟩
  | unclosed root => cases root

/-- A single tag is followed by its end tag at once. -/
theorem contentRead_behind_single {tag : StartTag} (single : tag.selfClosing = true)
    {place : Reader} {data : Text}
    (read : ContentRead isRoot name (.behind limit tag place) data children final) :
    children = [] ∧ final = ⟨place, limit, .afterEndTag, none⟩ := by
  have next := next_behind_single limit single place
  cases read with
  | ended other =>
    rw [next] at other
    cases other
  | closed other =>
    rw [next] at other
    cases other
    exact ⟨rfl, rfl⟩
  | text other =>
    rw [next] at other
    cases other
  | child other =>
    rw [next] at other
    cases other

theorem contentEnds_of_contentRead {stream : TokenStream} {data : Text}
    (read : ContentRead isRoot name stream data children final)
    (active : stream.phase ≠ .finished) (owes : stream.owed = none) :
    ContentEnds stream.lookahead isRoot name (children.map Element.shape) stream.rest final := by
  induction read with
  | @ended name stream final next =>
    obtain ⟨blank, ended⟩ := rest_of_next_none active next
    have content : ContentText stream.lookahead [] (stream.rest ++ []) :=
      .data (not_mem_of_blank blank) .nil
    rw [List.append_nil] at content
    exact .unclosed rfl content ended
  | @closed isRoot name stream final next =>
    cases tokenRead_of_next next with
    | owed other =>
      rw [owes] at other
      cases other
    | @closing _ space closing place _ blank closes consumed =>
      rw [consumed]
      have ends : ContentEnds stream.lookahead isRoot name [] ([] ++ (closing ++ place.rest))
          ⟨place, stream.lookahead, .afterEndTag, none⟩ := .closed .nil closes
      exact ends.data (not_mem_of_blank blank)
  | text next rest ih =>
    cases tokenRead_of_next next with
    | data _ blank consumed _ plain =>
      rw [consumed]
      exact .data (not_mem_of_blank blank) (.data plain (ih (by simp) rfl))
  | @child isRoot name innerData data tag innerChildren children stream after behind final next
      inner rest innerRead restRead =>
    cases tokenRead_of_next next with
    | @opening _ space opening place _ blank opens fits consumed =>
      rw [consumed, List.map_cons, Element.shape_ofTag]
      refine .data (not_mem_of_blank blank) ?_
      cases single : tag.selfClosing with
      | true =>
        obtain ⟨noChildren, rfl⟩ := contentRead_behind_single single inner
        rw [noChildren]
        exact .element (.single opens fits single) (restRead (by simp) rfl)
      | false =>
        have owesNone : (TokenStream.behind stream.lookahead tag place).owed = none := by
          simp [TokenStream.behind, single]
        have nested := innerRead (by simp [TokenStream.behind]) owesNone
        obtain ⟨inside, closing, last, content, closes, within, rfl⟩ := nested.inner
        have whole := ElementText.paired opens fits single content closes
        have ends := restRead (by simp) rfl
        have parts : opening ++ place.rest = opening ++ (inside ++ closing) ++ last.rest := by
          rw [show place.rest = inside ++ (closing ++ last.rest) from within]
          simp
        rw [parts]
        exact .element whole ends

end

/-- Data in front of a layout joins the piece that comes first. -/
theorem exists_layout_behind {limit : Nat} {piece : Text} (plain : '<' ∉ piece) {layout : Layout}
    (valid : layout.Valid) (fits : layout.Fits limit) :
    ∃ whole : Layout, whole.Valid ∧ whole.Fits limit ∧ whole.written = piece ++ layout.written ∧
      whole.children = layout.children := by
  by_cases filled : piece = []
  · exact ⟨layout, valid, fits, by rw [filled, List.nil_append], rfl⟩
  by_cases apart : layout.beginsText = false
  · exact ⟨.text piece layout, .text filled plain apart valid, fits, rfl, rfl⟩
  cases valid with
  | nil | single | paired => exact absurd rfl apart
  | @text front rest _ frontPlain others valid =>
    have both : '<' ∉ piece ++ front := fun bracket =>
      (List.mem_append.1 bracket).elim plain frontPlain
    have some : piece ++ front ≠ [] := fun none => filled (List.append_eq_nil_iff.1 none).1
    exact ⟨.text (piece ++ front) rest, .text some both others valid, fits,
      List.append_assoc _ _ _, rfl⟩

/-- The text of an element is laid out as its tags and what is inside of it. -/
def LaidOut (limit : Nat) (shape : Element) (own : Text) : Prop :=
  ∃ tag opening inside closing, (Layout.element tag opening inside closing .nil).Valid ∧
    (Layout.element tag opening inside closing .nil).Fits limit ∧
    own = opening ++ (inside.written ++ closing) ∧
    shape = .ofTag tag [] (inside.children.map Element.shape)

-- The two rules of the grammar refer to each other, and so do these two recursive proofs.
mutual

theorem laidOut_of_elementText {limit : Nat} {shape : Element} {own : Text} :
    ElementText limit shape own → LaidOut limit shape own
  | .single opens fits closed =>
    ⟨_, _, .nil, [], .single opens closed .nil, ⟨fits, trivial, trivial⟩,
      (List.append_nil _).symm, rfl⟩
  | .paired opens fits unclosed content closes => by
    obtain ⟨inside, valid, insideFits, rfl, rfl⟩ := exists_layout content
    exact ⟨_, _, inside, _, .paired opens unclosed valid closes .nil,
      ⟨fits, insideFits, trivial⟩, rfl, rfl⟩

theorem exists_layout {limit : Nat} {shapes : List Element} {text : Text} :
    ContentText limit shapes text → ∃ layout : Layout, layout.Valid ∧ layout.Fits limit ∧
      layout.written = text ∧ layout.children.map Element.shape = shapes
  | .nil => ⟨.nil, .nil, trivial, rfl, rfl⟩
  | .data plain others => by
    obtain ⟨rest, valid, fits, rfl, rfl⟩ := exists_layout others
    obtain ⟨whole, wholeValid, wholeFits, written, children⟩ :=
      exists_layout_behind plain valid fits
    exact ⟨whole, wholeValid, wholeFits, written, by rw [children]⟩
  | .element first others => by
    obtain ⟨tag, opening, inside, closing, own, ownFits, rfl, rfl⟩ := laidOut_of_elementText first
    obtain ⟨rest, valid, fits, rfl, rfl⟩ := exists_layout others
    refine ⟨.element tag opening inside closing rest, own.with_rest valid,
      ⟨ownFits.1, ownFits.2.1, fits⟩, by simp [Layout.written], ?_⟩
    rw [Layout.children, List.map_cons, Element.shape_ofTag]

end

theorem rootText_of_contentRead {limit : Nat} {tag : StartTag} {opening data : Text}
    {place : Reader} {children : List Element} {final : TokenStream}
    (opens : StartTagText tag opening) (fits : Text.byteLength opening ≤ limit)
    (read : ContentRead true tag.name (.behind limit tag place) data children final) :
    RootText limit (Element.ofTag tag data children).shape (opening ++ place.rest) final.rest := by
  rw [Element.shape_ofTag]
  cases single : tag.selfClosing with
  | true =>
    obtain ⟨rfl, rfl⟩ := contentRead_behind_single single read
    exact .closed (.single opens fits single)
  | false =>
    have owes : (TokenStream.behind limit tag place).owed = none := by
      simp [TokenStream.behind, single]
    have ends : ContentEnds limit true tag.name (children.map Element.shape) place.rest final :=
      contentEnds_of_contentRead read (by simp [TokenStream.behind]) owes
    generalize place.rest = rest at ends
    cases ends with
    | @closed inside closing last content closes =>
      have parts : opening ++ (inside ++ (closing ++ last.rest))
          = opening ++ (inside ++ closing) ++ last.rest := by simp
      rw [parts]
      exact .closed (.paired opens fits single content closes)
    | unclosed _ content ended =>
      rw [ended]
      exact .unclosed opens fits single content

theorem ofText_of_documentText {lookahead : Nat} {text prolog epilogue : Text} {root : Element}
    (derived : DocumentText (max lookahead 1) prolog root epilogue text) :
    ∃ document, Document.ofText lookahead text = .ok document ∧
      document.prolog = prolog ∧ document.root.shape = root ∧ document.epilogue = epilogue := by
  obtain ⟨noStart, derived⟩ := derived
  cases derived with
  | closed whole =>
    obtain ⟨tag, opening, inside, closing, valid, fits, rfl, rfl⟩ := laidOut_of_elementText whole
    let layout : DocumentLayout := ⟨prolog, tag, opening, inside, closing, epilogue⟩
    have laid : layout.Valid := ⟨noStart, valid⟩
    have read : Document.ofText lookahead layout.written = .ok layout.document :=
      laid.ofText_eq_ok fits
    refine ⟨layout.document, ?_, rfl, Element.shape_ofTag _ _ _, rfl⟩
    rw [layout.written_eq] at read
    rwa [List.append_assoc, List.append_assoc]
  | @unclosed tag children opening inside opens fits unclosed content =>
    obtain ⟨layout, valid, insideFits, rfl, rfl⟩ := exists_layout content
    refine ⟨_, ofText_unclosed noStart opens fits unclosed valid insideFits, rfl, ?_, rfl⟩
    rw [Element.shape_ofTag]

/-- A text is read as a document exactly when the grammar derives it. -/
theorem ofBytes_eq_ok_iff (lookahead : Nat) (text prolog epilogue : Text) (root : Element) :
    (∃ document, Document.ofBytes lookahead (Text.bytes text) = .ok document ∧
        document.prolog = prolog ∧ document.root.shape = root ∧ document.epilogue = epilogue) ↔
      DocumentText (max lookahead 1) prolog root epilogue text := by
  rw [ofBytes_bytes]
  constructor
  · rintro ⟨document, success, rfl, rfl, rfl⟩
    obtain ⟨tag, stream, data, children, final, first, read, root, epilogue⟩ :=
      ofText_eq_ok_iff.1 success
    obtain ⟨opening, place, noStart, opens, fits, whole, rfl⟩ := first_eq_ok first
    rw [whole, root, epilogue]
    exact .intro noStart (rootText_of_contentRead opens fits read)
  · exact ofText_of_documentText

end MailMerge.Markup
