import MailMerge.Markup.Tag

set_option autoImplicit false

namespace MailMerge.Markup

/-- An element. Its attributes are kept as they were written, and the character data that lies
directly in it is joined to one text. -/
structure Element where
  /-- The name, with its qualifier. -/
  name : Text
  /-- The attributes in the order of the source; a name may occur more than once. -/
  attributes : List Attribute
  /-- The character data directly inside the element, joined. -/
  data : Text
  children : List Element
  /-- Was the element written as a single tag? -/
  selfClosing : Bool
  deriving Repr

namespace Element

def shell (element : Element) : Element := { element with data := [], children := [] }

def ofData (name data : Text) : Element := ⟨name, [], data, [], false⟩

/-- The element that a start tag opens, with what was found inside. -/
def ofTag (tag : StartTag) (data : Text) (children : List Element) : Element :=
  ⟨tag.name, tag.attributes, data, children, tag.selfClosing⟩

def isNamed (name : Text) (element : Element) : Bool := element.name == name

def child? (name : Text) (element : Element) : Option Element :=
  element.children.find? (isNamed name)

def childIndex? (name : Text) (element : Element) : Option Nat :=
  element.children.findIdx? (isNamed name)

def firstChild? (element : Element) : Option Element := element.children.head?

def attributeValue? (name : Text) (element : Element) : Option Text :=
  (element.attributes.find? (·.name == name)).map (·.value)

mutual

/-- The data of the element and of everything inside it, a parent's in front of its children's. -/
def text : Element → Text
  | ⟨_, _, data, children, _⟩ => data ++ textOfAll children

def textOfAll : List Element → Text
  | [] => []
  | element :: rest => element.text ++ textOfAll rest

end

mutual

def count : Element → Nat
  | ⟨_, _, _, children, _⟩ => countOfAll children + 1

def countOfAll : List Element → Nat
  | [] => 0
  | element :: rest => element.count + countOfAll rest

end

theorem count_eq (element : Element) : element.count = countOfAll element.children + 1 := by
  cases element
  rfl

theorem countOfAll_append (first second : List Element) :
    countOfAll (first ++ second) = countOfAll first + countOfAll second := by
  induction first with
  | nil => simp [countOfAll]
  | cons element rest ih => simp [countOfAll, ih, Nat.add_assoc]

/-- A search for the elements with a name, which goes on from match to match. -/
structure Search where
  name : Text
  /-- The trees that are left to be searched, the next one last. -/
  left : Array Element

namespace Search

def inside (name : Text) (element : Element) : Search := ⟨name, element.children.reverse.toArray⟩

/-- The trees that are left to be searched, the next one first. -/
def pending (search : Search) : List Element := search.left.toList.reverse

/-- Takes off the next element, and puts its children in its place, the first one last. -/
def visit? (search : Search) : Option (Element × Search) :=
  search.left.back?.map fun element =>
    (element, { search with left := search.left.pop ++ element.children.reverse })

theorem visit?_eq_some {search later : Search} {element : Element}
    (visited : search.visit? = some (element, later)) :
    later.name = search.name ∧
      ∃ rest, search.pending = element :: rest ∧ later.pending = element.children ++ rest := by
  obtain ⟨name, left⟩ := search
  obtain ⟨last, top, same⟩ := Option.map_eq_some_iff.1 visited
  obtain ⟨rest, pushed⟩ := Array.back?_eq_some_iff.1 top
  obtain rfl : left = rest.push last := pushed
  obtain ⟨rfl, rfl⟩ := Prod.mk.inj same
  exact ⟨rfl, rest.toList.reverse, by simp [pending], by simp [pending]⟩

/-- The number of elements that are left. -/
def size (search : Search) : Nat := countOfAll search.pending

theorem size_visit_lt {search later : Search} {element : Element}
    (visited : search.visit? = some (element, later)) : later.size < search.size := by
  obtain ⟨-, rest, before, behind⟩ := visit?_eq_some visited
  rw [size, size, before, behind, countOfAll_append, countOfAll, count_eq]
  omega

/-- Goes on to the next match. There is none at the end of the search. -/
def next (search : Search) : Option Element × Search :=
  match _visited : search.visit? with
  | none => (none, search)
  | some (element, later) =>
    if element.isNamed search.name then (some element, later) else later.next
termination_by search.size
decreasing_by exact size_visit_lt _visited

theorem size_next_lt {search later : Search} {element : Element}
    (found : search.next = (some element, later)) : later.size < search.size := by
  fun_induction next search with
  | case1 search visited => simp at found
  | case2 search first behind visited named =>
    obtain ⟨-, rfl⟩ := Prod.mk.inj found
    exact size_visit_lt visited
  | case3 search first behind visited other ih =>
    exact Nat.lt_trans (ih found) (size_visit_lt visited)

def toList (search : Search) : List Element :=
  match _found : search.next with
  | (none, _) => []
  | (some element, later) => element :: later.toList
termination_by search.size
decreasing_by exact size_next_lt _found

end Search

/-- All elements with a name inside the element, in document order. -/
def descendants (name : Text) (element : Element) : List Element :=
  (Search.inside name element).toList

mutual

def decideEq (left right : Element) : Decidable (left = right) :=
  match left, right with
  | ⟨name, attributes, data, children, selfClosing⟩,
      ⟨name', attributes', data', children', selfClosing'⟩ =>
    if names : name = name' then
      if shells : attributes = attributes' ∧ data = data' ∧ selfClosing = selfClosing' then
        match decideEqAll children children' with
        | isTrue same => isTrue (by rw [names, shells.1, shells.2.1, shells.2.2, same])
        | isFalse different => isFalse (by simp [different])
      else isFalse (by intro same; injection same; simp_all)
    else isFalse (by simp [names])

def decideEqAll (left right : List Element) : Decidable (left = right) :=
  match left, right with
  | [], [] => isTrue rfl
  | [], _ :: _ => isFalse (by simp)
  | _ :: _, [] => isFalse (by simp)
  | first :: rest, first' :: rest' =>
    match decideEq first first' with
    | isTrue same =>
      match decideEqAll rest rest' with
      | isTrue others => isTrue (by rw [same, others])
      | isFalse different => isFalse (by simp [different])
    | isFalse different => isFalse (by simp [different])

end

instance : DecidableEq Element := decideEq

end Element

end MailMerge.Markup
