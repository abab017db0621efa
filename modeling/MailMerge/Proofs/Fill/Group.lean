import MailMerge.Fill.Walk

set_option autoImplicit false

namespace MailMerge.Fill

open Markup (Element)

/-- Paragraphs next to each other inside some elements: the path of indices down to their parent,
the index of the first one among their siblings, and the paragraphs themselves. Without a path
they are among the elements. -/
structure Group where
  path : List Nat
  first : Nat
  paragraphs : List Element
  deriving Repr, DecidableEq

/-- The elements that stand inside others at the end of a path of indices. -/
def childrenAt : List Nat → List Element → List Element
  | [], elements => elements
  | index :: path, elements =>
    match elements[index]? with
    | some element => childrenAt path element.children
    | none => []

/-- Elements with those at the end of a path of indices changed. -/
def changeAt (change : List Element → List Element) : List Nat → List Element → List Element
  | [], elements => change elements
  | index :: path, elements =>
    elements.modify index fun element =>
      { element with children := changeAt change path element.children }

def descendant? : List Nat → Element → Option Element
  | [], element => some element
  | index :: path, element => (element.children[index]?).bind (descendant? path)

namespace Group

def start (group : Group) : List Nat := group.path ++ [group.first]

/-- Does one group come in front of another in document order? -/
def Before (group other : Group) : Prop := group.start < other.start

/-- Does a path lead to one of the paragraphs, or into one? -/
def Holds (group : Group) (path : List Nat) : Prop :=
  ∃ index below, path = group.path ++ index :: below ∧
    group.first ≤ index ∧ index < group.first + group.paragraphs.length

def content (group : Group) (elements : List Element) : List Element :=
  ((childrenAt group.path elements).drop group.first).take group.paragraphs.length

def put (group : Group) (others elements : List Element) : List Element :=
  changeAt (fun siblings => siblings.take group.first
    ++ (others ++ siblings.drop (group.first + group.paragraphs.length))) group.path elements

/-- The group seen from outside an element that stands at an index. -/
def inside (index : Nat) (group : Group) : Group := { group with path := index :: group.path }

def behind (count : Nat) : Group → Group
  | ⟨[], first, paragraphs⟩ => ⟨[], first + count, paragraphs⟩
  | ⟨index :: path, first, paragraphs⟩ => ⟨(index + count) :: path, first, paragraphs⟩

/-- Is there room for the group in so many elements? -/
def Fits (count : Nat) (group : Group) : Prop :=
  match group.path with
  | [] => group.first + group.paragraphs.length ≤ count
  | index :: _ => index < count

@[simp] theorem paragraphs_inside (index : Nat) (group : Group) :
    (group.inside index).paragraphs = group.paragraphs := rfl

@[simp] theorem paragraphs_behind (count : Nat) (group : Group) :
    (group.behind count).paragraphs = group.paragraphs := by
  obtain ⟨_ | _, first, paragraphs⟩ := group <;> rfl

theorem Fits.mono {count more : Nat} {group : Group} (fits : group.Fits count)
    (grown : count ≤ more) : group.Fits more := by
  obtain ⟨_ | ⟨index, path⟩, first, paragraphs⟩ := group
  · exact Nat.le_trans fits grown
  · exact Nat.lt_of_lt_of_le fits grown

theorem fits_inside (index : Nat) (group : Group) : (group.inside index).Fits (index + 1) :=
  Nat.lt_succ_self index

theorem Fits.behind {count : Nat} {group : Group} (fits : group.Fits count) (front : Nat) :
    (group.behind front).Fits (front + count) := by
  obtain ⟨_ | ⟨index, path⟩, first, paragraphs⟩ := group
  · simp only [Fits, Group.behind] at fits ⊢
    omega
  · simp only [Fits, Group.behind] at fits ⊢
    omega

theorem start_inside (index : Nat) (group : Group) :
    (group.inside index).start = index :: group.start := rfl

theorem before_inside_iff (index : Nat) (group other : Group) :
    (group.inside index).Before (other.inside index) ↔ group.Before other := by
  simp [Before, start_inside]

/-- The first index on the way to a group. -/
def head (group : Group) : Nat := group.path.headD group.first

theorem start_eq_cons (group : Group) : ∃ below, group.start = group.head :: below := by
  obtain ⟨_ | ⟨index, path⟩, first, paragraphs⟩ := group
  · exact ⟨[], rfl⟩
  · exact ⟨path ++ [first], rfl⟩

theorem start_behind {group : Group} {below : List Nat} (start : group.start = group.head :: below)
    (count : Nat) : (group.behind count).start = (group.head + count) :: below := by
  obtain ⟨_ | ⟨index, path⟩, first, paragraphs⟩ := group
  · simpa [Group.start, Group.head, Group.behind] using start
  · simpa [Group.start, Group.head, Group.behind] using start

theorem before_behind_iff (count : Nat) (group other : Group) :
    (group.behind count).Before (other.behind count) ↔ group.Before other := by
  obtain ⟨below, start⟩ := group.start_eq_cons
  obtain ⟨others, otherStart⟩ := other.start_eq_cons
  rw [Before, Before, start_behind start, start_behind otherStart, start, otherStart]
  simp [List.cons_lt_cons_iff]

/-- A group with paragraphs that has room in the front comes before all groups behind it. -/
theorem before_behind {group : Group} {count : Nat} (fits : group.Fits count)
    (filled : group.paragraphs ≠ []) (other : Group) : group.Before (other.behind count) := by
  obtain ⟨below, start⟩ := group.start_eq_cons
  obtain ⟨others, otherStart⟩ := other.start_eq_cons
  have inFront : group.head < count := by
    obtain ⟨_ | ⟨index, path⟩, first, paragraphs⟩ := group
    · have positive : 0 < paragraphs.length := List.length_pos_iff.2 filled
      have room : first + paragraphs.length ≤ count := fits
      simp only [head, List.headD_nil]
      omega
    · exact fits
  rw [Before, start, start_behind otherStart, List.cons_lt_cons_iff]
  left
  omega

theorem holds_inside_iff (index : Nat) (group : Group) (path : List Nat) :
    (group.inside index).Holds (index :: path) ↔ group.Holds path := by
  simp [Holds, inside]

theorem holds_behind_iff (count : Nat) (group : Group) (index : Nat) (path : List Nat) :
    (group.behind count).Holds ((index + count) :: path) ↔ group.Holds (index :: path) := by
  obtain ⟨_ | ⟨head, above⟩, first, paragraphs⟩ := group
  · simp only [Holds, behind, List.nil_append, List.cons.injEq]
    constructor
    · rintro ⟨place, below, ⟨rfl, rfl⟩, lower, upper⟩
      exact ⟨index, path, ⟨rfl, rfl⟩, by omega, by omega⟩
    · rintro ⟨place, below, ⟨rfl, rfl⟩, lower, upper⟩
      exact ⟨_, _, ⟨rfl, rfl⟩, by omega, by omega⟩
  · simp only [Holds, behind, List.cons_append, List.cons.injEq, Nat.add_right_cancel_iff]

theorem content_inside (element : Element) (group : Group) :
    (group.inside 0).content [element] = group.content element.children := rfl

theorem put_inside (element : Element) (group : Group) (others : List Element) :
    (group.inside 0).put others [element]
      = [{ element with children := group.put others element.children }] := rfl

theorem modify_append_left {front : List Element} {index : Nat} (inFront : index < front.length)
    (change : Element → Element) (behind : List Element) :
    (front ++ behind).modify index change = front.modify index change ++ behind := by
  apply List.ext_getElem?
  intro place
  by_cases left : place < front.length
  · rw [List.getElem?_append_left (by simpa using left), List.getElem?_modify,
      List.getElem?_modify, List.getElem?_append_left left]
  · have apart : index ≠ place := by omega
    rw [List.getElem?_append_right (by simpa using left), List.getElem?_modify_ne _ _ apart,
      List.getElem?_append_right (by simpa using left), List.length_modify]

theorem modify_append_right (front : List Element) (index : Nat) (change : Element → Element)
    (behind : List Element) :
    (front ++ behind).modify (index + front.length) change
      = front ++ behind.modify index change := by
  apply List.ext_getElem?
  intro place
  by_cases left : place < front.length
  · have apart : index + front.length ≠ place := by omega
    rw [List.getElem?_modify_ne _ _ apart, List.getElem?_append_left left,
      List.getElem?_append_left left]
  · obtain ⟨rest, rfl⟩ := Nat.exists_eq_add_of_le' (Nat.le_of_not_lt left)
    simp [List.getElem?_modify, List.getElem?_append_right]

section

variable {front : List Element} {group : Group} (others : List Element) (rest : List Element)

theorem content_append_left (fits : group.Fits front.length) :
    group.content (front ++ rest) = group.content front := by
  obtain ⟨_ | ⟨index, path⟩, first, paragraphs⟩ := group
  · have room : first + paragraphs.length ≤ front.length := fits
    simp only [content, childrenAt]
    rw [List.drop_append_of_le_length (by omega),
      List.take_append_of_le_length (by rw [List.length_drop]; omega)]
  · rw [content, content, childrenAt, childrenAt, List.getElem?_append_left fits]

theorem content_append_right (group : Group) (front rest : List Element) :
    (group.behind front.length).content (front ++ rest) = group.content rest := by
  obtain ⟨_ | ⟨index, path⟩, first, paragraphs⟩ := group
  · simp only [content, behind, childrenAt]
    rw [Nat.add_comm, List.drop_length_add_append]
  · simp only [content, behind, childrenAt]
    rw [List.getElem?_append_right (Nat.le_add_left _ _), Nat.add_sub_cancel]

theorem put_append_left (fits : group.Fits front.length) :
    group.put others (front ++ rest) = group.put others front ++ rest := by
  obtain ⟨_ | ⟨index, path⟩, first, paragraphs⟩ := group
  · simp only [Fits] at fits
    simp only [put, changeAt]
    rw [List.take_append_of_le_length (by omega), List.drop_append_of_le_length (by omega),
      List.append_assoc, List.append_assoc]
  · exact modify_append_left fits _ rest

theorem put_append_right (group : Group) (others front rest : List Element) :
    (group.behind front.length).put others (front ++ rest) = front ++ group.put others rest := by
  obtain ⟨_ | ⟨index, path⟩, first, paragraphs⟩ := group
  · simp only [put, behind, changeAt]
    rw [Nat.add_comm first, Nat.add_assoc, List.take_length_add_append,
      List.drop_length_add_append, List.append_assoc]
  · exact modify_append_right front index _ rest

theorem length_put {elements others : List Element} (fits : group.Fits elements.length)
    (same : others.length = group.paragraphs.length) :
    (group.put others elements).length = elements.length := by
  obtain ⟨_ | ⟨index, path⟩, first, paragraphs⟩ := group
  · simp only [Fits] at fits same
    simp only [put, changeAt, List.length_append, List.length_take, List.length_drop]
    omega
  · exact List.length_modify _ _ _

end

end Group

end MailMerge.Fill
