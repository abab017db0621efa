import MailMerge.Proofs.Fill.Group
import MailMerge.Proofs.Fill.Walks
import Mathlib.Data.List.TakeWhile

set_option autoImplicit false

namespace MailMerge.Fill

open Markup (Element)

namespace Guide

/-- Where can a group begin among the children of an element? Behind anything but a paragraph, or,
when what follows a sibling is left alone, with the first child only. -/
def BeginsBehind (guide : Guide) (front : List Element) : Prop :=
  match guide.policy with
  | .truncate => front = []
  | .split => front.getLast?.any guide.isParagraph = false

/-- Which children of an element are searched for groups? All of them, unless the first one is a
paragraph; or, when every stretch of paragraphs is filled, all but the paragraphs. -/
def Enters (guide : Guide) (children : List Element) (child : Element) : Prop :=
  match guide.policy with
  | .truncate => children.head?.any guide.isParagraph = false
  | .split => guide.isParagraph child = false

/-- As many paragraphs among the children of an element as stand next to each other. -/
structure Stretch (guide : Guide) (children : List Element) (first : Nat)
    (paragraphs : List Element) : Prop where
  filled : paragraphs ≠ []
  all : ∀ element, element ∈ paragraphs → guide.isParagraph element = true
  stands : ∃ front behind, children = front ++ (paragraphs ++ behind) ∧ first = front.length ∧
    guide.BeginsBehind front ∧ behind.head?.any guide.isParagraph = false

/-- A group that the policy names among the children of an element or further inside. -/
inductive IsGroup (guide : Guide) : List Element → Group → Prop
  | here {children : List Element} {first : Nat} {paragraphs : List Element}
      (stretch : guide.Stretch children first paragraphs) :
      guide.IsGroup children ⟨[], first, paragraphs⟩
  | inside {children : List Element} {index : Nat} {child : Element} {group : Group}
      (there : children[index]? = some child) (enters : guide.Enters children child)
      (below : guide.IsGroup child.children group) :
      guide.IsGroup children (group.inside index)

/-- The groups that the policy names, each once and in document order. -/
structure Lists (guide : Guide) (children : List Element) (groups : List Group) : Prop where
  exactly : ∀ group, group ∈ groups ↔ guide.IsGroup children group
  ordered : groups.Pairwise Group.Before

end Guide

def Group.leading : List Element → List Group
  | [] => []
  | paragraph :: others => [⟨[], 0, paragraph :: others⟩]

theorem Group.mem_leading {paragraphs : List Element} {group : Group} :
    group ∈ Group.leading paragraphs ↔ paragraphs ≠ [] ∧ group = ⟨[], 0, paragraphs⟩ := by
  cases paragraphs with
  | nil => simp [leading]
  | cons paragraph others => simp [leading]

namespace Guide

variable {guide : Guide}

theorem isGroup_iff {children : List Element} {group : Group} :
    guide.IsGroup children group ↔
      (group.path = [] ∧ guide.Stretch children group.first group.paragraphs) ∨
        ∃ index child below, children[index]? = some child ∧ guide.Enters children child ∧
          guide.IsGroup child.children below ∧ group = below.inside index := by
  constructor
  · intro isGroup
    cases isGroup with
    | here stretch => exact Or.inl ⟨rfl, stretch⟩
    | inside there enters below => exact Or.inr ⟨_, _, _, there, enters, below, rfl⟩
  · rintro (⟨path, stretch⟩ | ⟨index, child, below, there, enters, isGroup, rfl⟩)
    · obtain ⟨_, first, paragraphs⟩ := group
      obtain rfl := path
      exact .here stretch
    · exact .inside there enters isGroup

/-- Behind leading paragraphs stands something else, or nothing. -/
theorem any_head?_dropWhile (elements : List Element) :
    (elements.dropWhile guide.isParagraph).head?.any guide.isParagraph = false := by
  have head := List.head?_dropWhile_not guide.isParagraph elements
  cases next : (elements.dropWhile guide.isParagraph).head? with
  | none => rfl
  | some element =>
    rw [next] at head
    simpa using head

/-- Paragraphs that nothing of their kind follows are all that is taken from where they begin. -/
theorem takeWhile_eq_of_stretch {paragraphs behind : List Element}
    (all : ∀ element, element ∈ paragraphs → guide.isParagraph element = true)
    (stops : behind.head?.any guide.isParagraph = false) :
    (paragraphs ++ behind).takeWhile guide.isParagraph = paragraphs := by
  rw [List.takeWhile_append_of_pos all]
  cases behind with
  | nil => simp
  | cons element rest =>
    have other : guide.isParagraph element = false := by simpa using stops
    rw [List.takeWhile_cons_of_neg (by simp [other]), List.append_nil]

theorem getLast?_append_cons_any (front : List Element) (element : Element) {rest : List Element}
    (other : guide.isParagraph element = false) :
    (front ++ element :: rest).getLast?.any guide.isParagraph
      = rest.getLast?.any guide.isParagraph := by
  cases rest with
  | nil => simp [other]
  | cons next rest => simp [List.getLast?_append, List.getLast?_cons]

section

variable (policy : guide.policy = .split)
include policy

/-- Paragraphs in front of something else are a stretch of their own. -/
theorem stretch_append_iff {front : List Element} {element : Element} {rest : List Element}
    (paragraphs : ∀ element, element ∈ front → guide.isParagraph element = true)
    (other : guide.isParagraph element = false) {first : Nat} {stretch : List Element} :
    guide.Stretch (front ++ element :: rest) first stretch ↔
      (front ≠ [] ∧ first = 0 ∧ stretch = front) ∨
        ∃ index, first = index + 1 + front.length ∧ guide.Stretch rest index stretch := by
  constructor
  · rintro ⟨filled, all, before, behind, whole, rfl, begins, stops⟩
    simp only [BeginsBehind, policy] at begins
    rcases List.append_eq_append_iff.1 whole with ⟨between, rfl, cut⟩ | ⟨between, rfl, cut⟩
    · -- The stretch begins at the other element or behind it.
      cases between with
      | nil =>
        obtain ⟨head, tail, rfl⟩ := List.exists_cons_of_ne_nil filled
        have same : element = head := (List.cons.inj cut).1
        rw [same, all head List.mem_cons_self] at other
        cases other
      | cons head between =>
        obtain ⟨rfl, rfl⟩ := List.cons.inj cut
        rw [getLast?_append_cons_any front element other] at begins
        refine Or.inr ⟨between.length, ?_, filled, all, between, behind, rfl, rfl, ?_, stops⟩
        · rw [List.length_append, List.length_cons]
          omega
        · simpa only [BeginsBehind, policy] using begins
    · -- The stretch begins among the paragraphs, so it begins with the first one.
      have empty : before = [] := by
        cases last : before.getLast? with
        | none => exact List.getLast?_eq_none_iff.1 last
        | some paragraph =>
          have inFront := paragraphs paragraph
            (List.mem_append_left between (List.mem_of_getLast? last))
          rw [last, Option.any_some, inFront] at begins
          cases begins
      subst empty
      rw [List.nil_append] at paragraphs ⊢
      have taken := takeWhile_eq_of_stretch all stops
      have own : (between ++ element :: rest).takeWhile guide.isParagraph = between :=
        takeWhile_eq_of_stretch paragraphs (by simpa using other)
      rw [cut, own] at taken
      exact Or.inl ⟨taken ▸ filled, rfl, taken.symm⟩
  · rintro (⟨filled, rfl, rfl⟩ | ⟨index, rfl, filled, all, before, behind, rfl, rfl, begins, stops⟩)
    · refine ⟨filled, paragraphs, [], element :: rest, rfl, rfl, ?_, by simpa using other⟩
      simp [BeginsBehind, policy]
    · refine ⟨filled, all, front ++ element :: before, behind, by simp, ?_, ?_, stops⟩
      · rw [List.length_append, List.length_cons]
        omega
      · simp only [BeginsBehind, policy] at begins ⊢
        rwa [getLast?_append_cons_any front element other]

theorem isGroup_paragraphs_iff {elements : List Element}
    (paragraphs : ∀ element, element ∈ elements → guide.isParagraph element = true)
    {group : Group} :
    guide.IsGroup elements group ↔ group ∈ Group.leading elements := by
  rw [isGroup_iff, Group.mem_leading]
  constructor
  · rintro (⟨path, filled, all, before, behind, whole, first, begins, stops⟩ |
      ⟨index, child, below, there, enters, _⟩)
    · obtain ⟨_, _, stretch⟩ := group
      obtain rfl := path
      obtain rfl := first
      dsimp only at filled all whole
      simp only [BeginsBehind, policy] at begins
      subst whole
      have front : before = [] := by
        cases last : before.getLast? with
        | none => exact List.getLast?_eq_none_iff.1 last
        | some paragraph =>
          have inside := paragraphs paragraph
            (List.mem_append_left _ (List.mem_of_getLast? last))
          rw [last, Option.any_some, inside] at begins
          cases begins
      have rest : behind = [] := by
        cases behind with
        | nil => rfl
        | cons paragraph others =>
          have inside := paragraphs paragraph (by simp)
          rw [List.head?_cons, Option.any_some, inside] at stops
          cases stops
      subst front rest
      rw [List.nil_append, List.append_nil]
      exact ⟨filled, rfl⟩
    · simp only [Enters, policy] at enters
      rw [paragraphs child (List.mem_of_getElem? there)] at enters
      cases enters
  · rintro ⟨filled, rfl⟩
    refine Or.inl ⟨rfl, filled, paragraphs, [], [], by simp, rfl, ?_, rfl⟩
    simp [BeginsBehind, policy]

theorem isGroup_append_iff {front : List Element} {element : Element} {rest : List Element}
    (paragraphs : ∀ element, element ∈ front → guide.isParagraph element = true)
    (other : guide.isParagraph element = false) {group : Group} :
    guide.IsGroup (front ++ element :: rest) group ↔
      group ∈ Group.leading front ∨
        (∃ below, guide.IsGroup element.children below ∧
          group = (below.inside 0).behind front.length)
        ∨ ∃ behind, guide.IsGroup rest behind ∧ group = (behind.behind 1).behind front.length := by
  have behindAll :
      ∀ index, (front ++ element :: rest)[index + 1 + front.length]? = rest[index]? := by
    intro index
    rw [List.getElem?_append_right (by omega), Nat.add_sub_cancel, List.getElem?_cons_succ]
  rw [isGroup_iff, Group.mem_leading]
  constructor
  · rintro (⟨path, stretch⟩ | ⟨index, child, below, there, enters, isGroup, rfl⟩)
    · obtain ⟨_, first, stretched⟩ := group
      obtain rfl := path
      rcases (stretch_append_iff policy paragraphs other).1 stretch with
        ⟨filled, rfl, rfl⟩ | ⟨index, rfl, inRest⟩
      · exact Or.inl ⟨filled, rfl⟩
      · exact Or.inr (Or.inr ⟨_, .here inRest, rfl⟩)
    · right
      rcases Nat.lt_trichotomy index front.length with inFront | rfl | later
      · rw [List.getElem?_append_left inFront] at there
        simp only [Enters, policy] at enters
        rw [paragraphs child (List.mem_of_getElem? there)] at enters
        cases enters
      · have same : element = child := by simpa using there
        subst same
        exact Or.inl ⟨below, isGroup, by simp [Group.inside, Group.behind]⟩
      · obtain ⟨rank, rfl⟩ : ∃ rank, index = rank + 1 + front.length :=
          ⟨index - 1 - front.length, by omega⟩
        rw [behindAll] at there
        refine Or.inr ⟨_, .inside there ?_ isGroup, rfl⟩
        simpa only [Enters, policy] using enters
  · rintro (⟨filled, rfl⟩ | ⟨below, isGroup, rfl⟩ | ⟨behind, isGroup, rfl⟩)
    · exact Or.inl ⟨rfl, (stretch_append_iff policy paragraphs other).2 (Or.inl ⟨filled, rfl, rfl⟩)⟩
    · refine Or.inr ⟨front.length, element, below, by simp, ?_, isGroup, ?_⟩
      · simpa only [Enters, policy] using other
      · simp [Group.inside, Group.behind]
    · cases isGroup with
      | here stretch =>
        exact Or.inl ⟨rfl, (stretch_append_iff policy paragraphs other).2
          (Or.inr ⟨_, rfl, stretch⟩)⟩
      | @inside _ index child below there enters inner =>
        refine Or.inr ⟨index + 1 + front.length, child, below, ?_, ?_, inner, rfl⟩
        · rw [behindAll]
          exact there
        · simpa only [Enters, policy] using enters

end

section

variable (policy : guide.policy = .truncate)
include policy

/-- Behind leading paragraphs nothing is filled. -/
theorem isGroup_leading_iff {children : List Element}
    (leading : children.head?.any guide.isParagraph = true) {group : Group} :
    guide.IsGroup children group ↔
      group ∈ Group.leading (children.takeWhile guide.isParagraph) := by
  rw [isGroup_iff, Group.mem_leading]
  constructor
  · rintro (⟨path, filled, all, before, behind, whole, first, begins, stops⟩ |
      ⟨index, child, below, there, enters, _⟩)
    · obtain ⟨_, _, paragraphs⟩ := group
      obtain rfl := path
      obtain rfl := first
      simp only [BeginsBehind, policy] at begins
      subst begins
      dsimp only at filled all whole
      rw [whole, List.nil_append, takeWhile_eq_of_stretch all stops]
      exact ⟨filled, rfl⟩
    · simp only [Enters, policy] at enters
      rw [enters] at leading
      cases leading
  · rintro ⟨filled, rfl⟩
    exact Or.inl ⟨rfl, filled, fun element member => List.mem_takeWhile_imp member, [],
      children.dropWhile guide.isParagraph, by simp, rfl, by simp [BeginsBehind, policy],
      any_head?_dropWhile children⟩

/-- Without leading paragraphs all children are searched. -/
theorem isGroup_searched_iff {children : List Element}
    (other : children.head?.any guide.isParagraph = false) {group : Group} :
    guide.IsGroup children group ↔
      ∃ index child below, children[index]? = some child ∧
        guide.IsGroup child.children below ∧ group = below.inside index := by
  rw [isGroup_iff]
  constructor
  · rintro (⟨_, filled, all, before, behind, whole, _, begins, _⟩ |
      ⟨index, child, below, there, _, isGroup, rfl⟩)
    · simp only [BeginsBehind, policy] at begins
      obtain ⟨head, tail, cut⟩ := List.exists_cons_of_ne_nil filled
      rw [whole, begins, cut] at other
      have paragraph := all head (by simp [cut])
      simp [paragraph] at other
    · exact ⟨index, child, below, there, isGroup, rfl⟩
  · rintro ⟨index, child, below, there, isGroup, rfl⟩
    refine Or.inr ⟨index, child, below, there, ?_, isGroup, rfl⟩
    simpa only [Enters, policy] using other

end

end Guide

/-- The work of walking through a list of elements, with the groups that it fills, in order. -/
inductive Visits (guide : Guide) :
    List Element → List Group → Dialogue (Walked (List Element)) → Prop
  | alone {elements : List Element} {walked : Walked (List Element)}
      (same : walked.result = elements) (success : walked.failure = none)
      (counts : walked.report = ⟨0, 0, 0, walked.report.truncatedParagraphs⟩) :
      Visits guide elements [] (.done walked)
  | group {paragraphs : List Element}
      (all : ∀ element, element ∈ paragraphs → guide.isParagraph element = true) :
      Visits guide paragraphs (Group.leading paragraphs) (guide.fillGroup paragraphs)
  | inside {element : Element} {groups : List Group} {work : Dialogue (Walked (List Element))}
      (children : Visits guide element.children groups work) :
      Visits guide [element] (groups.map (Group.inside 0)) (work.bind fun inside =>
        .done (inside.map fun children => [{ element with children := children }]))
  | append {front behind : List Element} {groups others : List Group}
      {work next : Dialogue (Walked (List Element))}
      (first : Visits guide front groups work) (second : Visits guide behind others next) :
      Visits guide (front ++ behind) (groups ++ others.map (Group.behind front.length))
        (work.bind fun walked => followedBy (· ++ ·) walked behind next)

namespace Visits

variable {guide : Guide}

theorem walks {elements : List Element} {groups : List Group}
    {work : Dialogue (Walked (List Element))} (visits : Visits guide elements groups work) :
    Walks guide elements work := by
  induction visits with
  | alone same success counts => exact .alone same success
  | group all => exact .group all
  | inside children ih => exact .inside ih
  | append first second front behind => exact .append front behind

/-- The work of walking through one element, with the groups among its children and further
inside. -/
def One (guide : Guide) (element : Element) (groups : List Group)
    (work : Dialogue (Walked Element)) : Prop :=
  ∃ inner, Visits guide element.children groups inner ∧
    work = inner.bind fun inside =>
      .done (inside.map fun children => { element with children := children })

theorem cons {element : Element} {rest : List Element} {groups others : List Group}
    {work : Dialogue (Walked Element)} {next : Dialogue (Walked (List Element))}
    (first : One guide element groups work) (second : Visits guide rest others next) :
    Visits guide (element :: rest) (groups.map (Group.inside 0) ++ others.map (Group.behind 1))
      (work.bind fun walked => followedBy List.cons walked rest next) := by
  obtain ⟨inner, children, rfl⟩ := first
  have joined := append (inside children) second
  simp only [Dialogue.bind_assoc, Dialogue.bind] at joined ⊢
  exact joined

/-- A group of a walk is made of paragraphs that stand among the elements of the walk or further
inside. -/
structure Sound (guide : Guide) (elements : List Element) (group : Group) : Prop where
  fits : group.Fits elements.length
  stands : group.content elements = group.paragraphs
  filled : group.paragraphs ≠ []
  all : ∀ element, element ∈ group.paragraphs → guide.isParagraph element = true

variable {elements : List Element} {groups : List Group} {work : Dialogue (Walked (List Element))}

theorem sound (visits : Visits guide elements groups work) :
    ∀ group, group ∈ groups → Sound guide elements group := by
  induction visits with
  | alone same success counts => simp
  | @group paragraphs all =>
    intro group member
    obtain ⟨filled, rfl⟩ := Group.mem_leading.1 member
    exact ⟨Nat.le_of_eq (Nat.zero_add _), List.take_length, filled, all⟩
  | inside children ih =>
    intro group member
    obtain ⟨below, inGroups, rfl⟩ := List.mem_map.1 member
    have sound := ih below inGroups
    exact ⟨Group.fits_inside 0 below, sound.stands, sound.filled, sound.all⟩
  | @append front behind groups others _ _ _ _ first second =>
    intro group member
    rcases List.mem_append.1 member with inGroups | shifted
    · have sound := first group inGroups
      refine ⟨?_, ?_, sound.filled, sound.all⟩
      · rw [List.length_append]
        exact sound.fits.mono (Nat.le_add_right _ _)
      · rw [Group.content_append_left behind sound.fits, sound.stands]
    · obtain ⟨other, inOthers, rfl⟩ := List.mem_map.1 shifted
      have sound := second other inOthers
      refine ⟨?_, ?_, by simpa using sound.filled, by simpa using sound.all⟩
      · rw [List.length_append]
        exact sound.fits.behind front.length
      · rw [Group.content_append_right, Group.paragraphs_behind, sound.stands]

/-- A walk goes through its groups in document order. -/
theorem ordered (visits : Visits guide elements groups work) : groups.Pairwise Group.Before := by
  induction visits with
  | alone same success counts => exact .nil
  | @group paragraphs all =>
    cases paragraphs with
    | nil => exact .nil
    | cons paragraph others => exact List.pairwise_singleton _ _
  | inside children ih =>
    rw [List.pairwise_map]
    exact ih.imp (Group.before_inside_iff 0 _ _).2
  | append front behind first second =>
    rw [List.pairwise_append, List.pairwise_map]
    refine ⟨first, second.imp (Group.before_behind_iff _ _ _).2,
      fun group member other inOthers => ?_⟩
    obtain ⟨other, _, rfl⟩ := List.mem_map.1 inOthers
    have found := front.sound group member
    exact Group.before_behind found.fits found.filled other

end Visits

namespace Guide

variable {guide : Guide}

theorem visits_fillLeading (container : Text) (children : List Element) :
    Visits guide children (Group.leading (children.takeWhile guide.isParagraph))
      (guide.fillLeading container children) := by
  have leading : ∀ element, element ∈ children.takeWhile guide.isParagraph →
      guide.isParagraph element = true := fun element member => List.mem_takeWhile_imp member
  have others : Visits guide (children.dropWhile guide.isParagraph) []
      (.done (guide.truncated container (children.dropWhile guide.isParagraph))) :=
    .alone rfl rfl rfl
  have visits := Visits.append (.group leading) others
  rwa [List.takeWhile_append_dropWhile, List.map_nil, List.append_nil] at visits

mutual

theorem exists_visits_walkTruncate (policy : guide.policy = .truncate) : ∀ element, ∃ groups,
    Visits.One guide element groups (guide.walkTruncate element) ∧
      ∀ group, group ∈ groups ↔ guide.IsGroup element.children group
  | ⟨name, attributes, data, children, selfClosing⟩ => by
    rw [walkTruncate.eq_def]
    cases children with
    | nil =>
      obtain ⟨groups, visits, exactly⟩ := exists_visits_walkTruncateAll policy []
      refine ⟨groups, ⟨_, visits, rfl⟩, fun group => ?_⟩
      rw [exactly, isGroup_searched_iff policy rfl]
    | cons first rest =>
      cases paragraph : guide.isParagraph first with
      | true =>
        refine ⟨_, ⟨_, visits_fillLeading name (first :: rest), ?_⟩, fun group => ?_⟩
        · simp [paragraph]
        · exact (isGroup_leading_iff policy (by simpa using paragraph)).symm
      | false =>
        obtain ⟨groups, visits, exactly⟩ := exists_visits_walkTruncateAll policy (first :: rest)
        refine ⟨groups, ⟨_, visits, ?_⟩, fun group => ?_⟩
        · simp [paragraph]
        · rw [exactly, isGroup_searched_iff policy (by simpa using paragraph)]

theorem exists_visits_walkTruncateAll (policy : guide.policy = .truncate) : ∀ elements, ∃ groups,
    Visits guide elements groups (guide.walkTruncateAll elements) ∧
      ∀ group, group ∈ groups ↔ ∃ index child below, elements[index]? = some child ∧
        guide.IsGroup child.children below ∧ group = below.inside index
  | [] => ⟨[], .alone rfl rfl rfl, by simp⟩
  | element :: rest => by
    obtain ⟨groups, first, exactly⟩ := exists_visits_walkTruncate policy element
    obtain ⟨others, second, exactlyOthers⟩ := exists_visits_walkTruncateAll policy rest
    rw [walkTruncateAll]
    refine ⟨_, .cons first second, fun group => ?_⟩
    simp only [List.mem_append, List.mem_map, exactly, exactlyOthers]
    constructor
    · rintro (⟨below, isGroup, rfl⟩ | ⟨_, ⟨index, child, below, there, isGroup, rfl⟩, rfl⟩)
      · exact ⟨0, element, below, rfl, isGroup, rfl⟩
      · exact ⟨index + 1, child, below, there, isGroup, rfl⟩
    · rintro ⟨index, child, below, there, isGroup, rfl⟩
      cases index with
      | zero =>
        obtain rfl := Option.some.inj there
        exact Or.inl ⟨below, isGroup, rfl⟩
      | succ index => exact Or.inr ⟨_, ⟨index, child, below, there, isGroup, rfl⟩, rfl⟩

end

mutual

theorem exists_visits_walkSplit (policy : guide.policy = .split) : ∀ element, ∃ groups,
    Visits.One guide element groups (guide.walkSplit element) ∧
      ∀ group, group ∈ groups ↔ guide.IsGroup element.children group
  | ⟨name, attributes, data, children, selfClosing⟩ => by
    obtain ⟨groups, visits, exactly⟩ := exists_visits_walkSplitAll policy [] children (by simp)
    rw [walkSplit]
    exact ⟨groups, ⟨_, visits, rfl⟩, exactly⟩

theorem exists_visits_walkSplitAll (policy : guide.policy = .split) (stretch : List Element) :
    ∀ elements,
    (∀ element, element ∈ stretch → guide.isParagraph element = true) → ∃ groups,
      Visits guide (stretch.reverse ++ elements) groups (guide.walkSplitAll stretch elements) ∧
        ∀ group, group ∈ groups ↔ guide.IsGroup (stretch.reverse ++ elements) group
  | [], paragraphs => by
    have all : ∀ element, element ∈ stretch.reverse → guide.isParagraph element = true := by
      simpa using paragraphs
    rw [walkSplitAll, List.append_nil]
    exact ⟨_, .group all, fun group => (isGroup_paragraphs_iff policy all).symm⟩
  | element :: rest, paragraphs => by
    rw [walkSplitAll]
    split
    · rename_i isParagraph
      have grown := exists_visits_walkSplitAll policy (element :: stretch) rest
        (List.forall_mem_cons.2 ⟨isParagraph, paragraphs⟩)
      rwa [List.reverse_cons, List.append_assoc] at grown
    · rename_i other
      have all : ∀ element, element ∈ stretch.reverse → guide.isParagraph element = true := by
        simpa using paragraphs
      obtain ⟨groups, first, exactly⟩ := exists_visits_walkSplit policy element
      obtain ⟨others, second, exactlyOthers⟩ := exists_visits_walkSplitAll policy [] rest (by simp)
      rw [List.reverse_nil, List.nil_append] at second exactlyOthers
      refine ⟨_, .append (.group all) (.cons first second), fun group => ?_⟩
      rw [isGroup_append_iff policy all (Bool.eq_false_iff.2 other), List.mem_append,
        List.map_append, List.mem_append, List.map_map, List.map_map, List.mem_map, List.mem_map]
      simp only [exactly, exactlyOthers, Function.comp_apply, eq_comm]

end

variable (guide)

/-- A walk fills the groups that its policy names, each once and in document order. -/
theorem exists_visits_walk (root : Element) :
    ∃ groups, guide.Lists root.children groups ∧
      Visits.One guide root groups (guide.walk root) := by
  have listed : ∃ groups, Visits.One guide root groups (guide.walk root) ∧
      ∀ group, group ∈ groups ↔ guide.IsGroup root.children group := by
    rw [walk]
    cases policy : guide.policy with
    | truncate => exact exists_visits_walkTruncate policy root
    | split => exact exists_visits_walkSplit policy root
  obtain ⟨groups, ⟨inner, visits, same⟩, exactly⟩ := listed
  exact ⟨groups, ⟨exactly, visits.ordered⟩, inner, visits, same⟩

/-- Both policies walk by the same steps. -/
theorem walks_walk (element : Element) : Walks.One guide element (guide.walk element) := by
  obtain ⟨_, _, _, visits, same⟩ := guide.exists_visits_walk element
  rw [same]
  exact .one visits.walks

end Guide

end MailMerge.Fill
