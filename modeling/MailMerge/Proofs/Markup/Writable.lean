import MailMerge.Markup.Written

set_option autoImplicit false

namespace MailMerge.Markup

/-- A name as it is read: a character that begins a name and then characters that go on with one. -/
def IsName (name : Text) : Prop :=
  ∃ c rest, name = c :: rest ∧ isNameStart c = true ∧ ∀ d, d ∈ rest → isNameChar d = true

/-- A text that is empty or holds something other than space. -/
def NotBlank (text : Text) : Prop := text = [] ∨ ∃ c, c ∈ text ∧ isSpace c = false

/-- A text in which no angle bracket stands directly in front of a character that begins a name. -/
def NoStartTag (text : Text) : Prop :=
  ∀ front c behind, text = front ++ '<' :: c :: behind → isNameStart c = false

/-- An attribute that is read back as it is written. -/
structure Attribute.Writable (attr : Attribute) : Prop where
  name : IsName attr.name
  value : '"' ∉ attr.value

/-- An element that is read back as it is written, if its children are. -/
structure Element.Writable (element : Element) : Prop where
  name : IsName element.name
  attributes : ∀ attr, attr ∈ element.attributes → attr.Writable
  data : '<' ∉ element.data
  /-- Space in front of a child would be dropped. -/
  mixed : element.children ≠ [] → NotBlank element.data
  /-- A single tag holds nothing. -/
  single : element.selfClosing = true → element.data = [] ∧ element.children = []

/-- Every element of a tree has a property. -/
inductive Element.Everywhere (holds : Element → Prop) : Element → Prop
  | intro {element : Element} (here : holds element)
      (inside : ∀ child, child ∈ element.children → child.Everywhere holds) :
      element.Everywhere holds

/-- Every element of the trees of a list is read back as it is written. -/
def AllWritable (elements : List Element) : Prop :=
  ∀ element, element ∈ elements → element.Everywhere Element.Writable

/-- A document that is read back as it is written. -/
structure Document.Writable (document : Document) : Prop where
  prolog : NoStartTag document.prolog
  root : document.root.Everywhere Element.Writable

def Element.isSingle (element : Element) : Bool :=
  element.selfClosing && element.children.isEmpty && element.data.isEmpty

/-- The end of a start tag. -/
def tagEnd (closed : Bool) : Text := if closed then ['/', '>'] else ['>']

def Element.startTag (element : Element) : Text :=
  writtenOpening element.name element.attributes ++ tagEnd element.isSingle

/-- Every start tag of a tree takes at most so many bytes. -/
def Element.TagsFit (limit : Nat) (element : Element) : Prop :=
  element.Everywhere fun inner => Text.byteLength inner.startTag ≤ limit

def writtenClosing (name : Text) : Text := '<' :: '/' :: name ++ ['>']

def Element.writtenInside (element : Element) : Text :=
  if element.isSingle then []
  else element.data ++ (Element.writtenAll element.children ++ writtenClosing element.name)

theorem Element.Everywhere.here {holds : Element → Prop} {element : Element}
    (everywhere : element.Everywhere holds) : holds element := by
  cases everywhere with
  | intro here _ => exact here

theorem Element.Everywhere.inside {holds : Element → Prop} {element child : Element}
    (everywhere : element.Everywhere holds) (member : child ∈ element.children) :
    child.Everywhere holds := by
  cases everywhere with
  | intro _ inside => exact inside child member

/-- Other children do no harm, as long as none are added to an element without children. -/
theorem Element.Everywhere.withChildren {element : Element}
    (writable : element.Everywhere Element.Writable) {children : List Element}
    (inside : AllWritable children) (empty : element.children = [] → children = []) :
    ({ element with children := children } : Element).Everywhere Element.Writable := by
  have here := writable.here
  refine .intro ⟨here.name, here.attributes, here.data, ?_, ?_⟩ inside
  · intro some
    exact here.mixed fun none => some (empty none)
  · intro closed
    obtain ⟨noData, noChildren⟩ := here.single closed
    exact ⟨noData, empty noChildren⟩

theorem isName_iff {name : Text} :
    IsName name ↔ (name.head?.any isNameStart && name.all isNameChar) = true := by
  constructor
  · rintro ⟨c, rest, rfl, begins, others⟩
    simpa [begins, isNameChar_of_isNameStart begins] using others
  · intro checked
    cases name with
    | nil => cases checked
    | cons c rest =>
      simp only [List.head?_cons, Option.any_some, List.all_cons, Bool.and_eq_true,
        List.all_eq_true] at checked
      exact ⟨c, rest, rfl, checked.1, checked.2.2⟩

instance (name : Text) : Decidable (IsName name) := decidable_of_iff' _ isName_iff

theorem notBlank_iff {text : Text} :
    NotBlank text ↔ (text.isEmpty || text.any fun c => !isSpace c) = true := by
  simp [NotBlank]

instance (text : Text) : Decidable (NotBlank text) := decidable_of_iff' _ notBlank_iff

instance (attr : Attribute) : Decidable attr.Writable :=
  decidable_of_iff (IsName attr.name ∧ '"' ∉ attr.value)
    ⟨fun both => ⟨both.1, both.2⟩, fun writable => ⟨writable.name, writable.value⟩⟩

instance (element : Element) : Decidable element.Writable :=
  decidable_of_iff
    (IsName element.name ∧ (∀ attr, attr ∈ element.attributes → attr.Writable) ∧
      '<' ∉ element.data ∧ (element.children ≠ [] → NotBlank element.data) ∧
      (element.selfClosing = true → element.data = [] ∧ element.children = []))
    ⟨fun ⟨name, attributes, data, mixed, single⟩ => ⟨name, attributes, data, mixed, single⟩,
      fun ⟨name, attributes, data, mixed, single⟩ => ⟨name, attributes, data, mixed, single⟩⟩

theorem Element.everywhere_iff {holds : Element → Prop} {element : Element} :
    element.Everywhere holds ↔
      holds element ∧ ∀ child, child ∈ element.children → child.Everywhere holds :=
  ⟨fun everywhere => ⟨everywhere.here, fun _ => everywhere.inside⟩,
    fun both => .intro both.1 both.2⟩

mutual

def Element.decideEverywhere (holds : Element → Prop) [DecidablePred holds] :
    (element : Element) → Decidable (element.Everywhere holds)
  | ⟨_, _, _, children, _⟩ =>
    have := decideEverywhereAll holds children
    decidable_of_iff' _ everywhere_iff

def Element.decideEverywhereAll (holds : Element → Prop) [DecidablePred holds] :
    (elements : List Element) →
      Decidable (∀ element, element ∈ elements → element.Everywhere holds)
  | [] => isTrue (by simp)
  | element :: rest =>
    have := decideEverywhere holds element
    have := decideEverywhereAll holds rest
    decidable_of_iff' _ List.forall_mem_cons

end

instance (holds : Element → Prop) [DecidablePred holds] (element : Element) :
    Decidable (element.Everywhere holds) := element.decideEverywhere holds

instance (limit : Nat) (element : Element) : Decidable (element.TagsFit limit) :=
  inferInstanceAs (Decidable (element.Everywhere _))

theorem Element.written_eq (element : Element) :
    element.written = element.startTag ++ element.writtenInside := by
  obtain ⟨name, attributes, data, children, selfClosing⟩ := element
  rw [Element.written, startTag, writtenInside, isSingle, tagEnd, writtenClosing]
  split <;> simp

theorem isSpace_false_of_isNameStart {c : Char} (begins : isNameStart c = true) :
    isSpace c = false := by
  cases space : isSpace c with
  | false => rfl
  | true =>
    simp only [isSpace, Bool.or_eq_true, decide_eq_true_eq] at space
    rcases space with ((rfl | rfl) | rfl) | rfl <;> exact absurd begins (by decide)

theorem ne_of_isNameStart {c other : Char} (begins : isNameStart c = true)
    (otherwise : isNameStart other = false) : c ≠ other := by
  rintro rfl
  rw [begins] at otherwise
  cases otherwise

theorem IsName.forall_isNameChar {name : Text} (isName : IsName name) {c : Char}
    (member : c ∈ name) : isNameChar c = true := by
  obtain ⟨first, rest, rfl, begins, others⟩ := isName
  rcases List.mem_cons.1 member with rfl | inRest
  · exact isNameChar_of_isNameStart begins
  · exact others c inRest

end MailMerge.Markup
