import MailMerge.Proofs.Run.Reflatten
import Mathlib.Data.List.Flatten

set_option autoImplicit false

namespace MailMerge.Run

open Markup (Element)

section

variable (vocabulary : Vocabulary)

/-- The children of a run beside its first text element and its properties. -/
def otherContent (run : Element) : List Element :=
  run.children.zipIdx.filterMap fun (child, index) =>
    if some index = run.childIndex? vocabulary.text ∨ child.isNamed vocabulary.properties = true
    then none else some child

/-- The children of a run that holds text, beside this text and the run's properties. -/
def textRunContent (child : Element) : List Element :=
  if child.isNamed vocabulary.run = true ∧ runText vocabulary child ≠ []
  then otherContent vocabulary child else []

/-- The content of a child, if it has a cell. -/
def keptContent (own : List Cell) (child : Element) : List Element :=
  if own = [] then [] else textRunContent vocabulary child

/-- What the runs of a group that hold text hold beside it. -/
def content (group : List Element) : List Element :=
  group.flatMap fun paragraph => paragraph.children.flatMap (textRunContent vocabulary)

theorem child?_of_childIndex? {name : Text} {run child : Element} {index : Nat}
    (place : run.childIndex? name = some index) (childAt : run.children[index]? = some child) :
    run.child? name = some child := by
  obtain ⟨inside, named, first⟩ := List.findIdx?_eq_some_iff_getElem.1 place
  have here : run.children[index] = child :=
    Option.some.inj ((List.getElem?_eq_getElem inside).symm.trans childAt)
  exact List.find?_eq_some_iff_getElem.2 ⟨here ▸ named, index, inside, here, by simpa using first⟩

theorem runText_of_childIndex?_eq_some {run child : Element} {index : Nat}
    (place : run.childIndex? vocabulary.text = some index)
    (childAt : run.children[index]? = some child) : runText vocabulary run = child.data := by
  rw [runText, child?_of_childIndex? place childAt]
  rfl

theorem runText_of_childIndex?_eq_none {run : Element}
    (absent : run.childIndex? vocabulary.text = none) : runText vocabulary run = [] := by
  have noChild : run.child? vocabulary.text = none := by
    rw [Element.childIndex?, List.findIdx?_eq_none_iff] at absent
    rw [Element.child?, List.find?_eq_none]
    simpa using absent
  rw [runText, noChild]
  rfl

section

variable {run : Element} {text : Text}
  (fits : run.childIndex? vocabulary.text = none → text = [])
include fits

/-- No child is added to a run that has a text element, or that gets no text. -/
theorem children_rebuildRun :
    (rebuildRun vocabulary run (run.childIndex? vocabulary.text) text).children
      = run.children.zipIdx.map fun child =>
        if some child.2 = run.childIndex? vocabulary.text then { child.1.shell with data := text }
        else child.1 := by
  rw [rebuildRun, if_neg fun added => added.2 (fits added.1), List.append_nil]

theorem childIndex?_rebuildRun :
    (rebuildRun vocabulary run (run.childIndex? vocabulary.text) text).childIndex? vocabulary.text
      = run.childIndex? vocabulary.text := by
  have sameName : ∀ child : Element × Nat, Element.isNamed vocabulary.text
      (if some child.2 = run.childIndex? vocabulary.text then { child.1.shell with data := text }
        else child.1) = child.1.isNamed vocabulary.text := by
    intro child
    split <;> rfl
  rw [Element.childIndex?, children_rebuildRun vocabulary fits, List.findIdx?_map,
    Element.childIndex?]
  conv_rhs => rw [← List.zipIdx_map_fst 0 run.children, List.findIdx?_map]
  exact congrArg (fun named => List.findIdx? named run.children.zipIdx) (funext sameName)

end

/-- A run keeps its children when it gets another text, apart from its text element. -/
theorem otherContent_rebuildRun {run : Element} {index : Nat}
    (place : run.childIndex? vocabulary.text = some index) (text : Text) :
    otherContent vocabulary (rebuildRun vocabulary run (some index) text)
      = otherContent vocabulary run := by
  have fits : run.childIndex? vocabulary.text = none → text = [] := fun absent => by
    rw [place] at absent
    cases absent
  have samePlace := childIndex?_rebuildRun vocabulary fits
  have children := children_rebuildRun vocabulary fits
  rw [place] at samePlace children
  rw [otherContent, otherContent, samePlace, children, place, zipIdx_map_zipIdx,
    List.filterMap_map]
  apply List.filterMap_congr
  rintro ⟨child, number⟩ _
  by_cases own : number = index
  · simp [own]
  · simp [own]

theorem textOf_ne_nil_iff {own : List Cell} :
    textOf own ≠ [] ↔ ∃ cell, cell ∈ own ∧ cell.char.isSome := by
  rw [textOf, ne_eq, List.filterMap_eq_nil_iff, not_forall]
  simp only [Classical.not_imp, Option.isSome_iff_ne_none, ne_eq]

/-- What is left of a child keeps its content if it has a cell. -/
theorem textRunContent_rebuiltChild? {own : List Cell} {child : Element}
    (fromChild : ∀ cell, cell ∈ own → child.isNamed vocabulary.run = true ∧
      cell.origin.text = child.childIndex? vocabulary.text ∧
      (cell.char.isSome ↔ runText vocabulary child ≠ [])) :
    (rebuiltChild? vocabulary own child).toList.flatMap (textRunContent vocabulary)
      = keptContent vocabulary own child := by
  cases own with
  | nil =>
    rw [rebuiltChild?, keptContent, if_pos rfl]
    by_cases isRun : child.isNamed vocabulary.run = true <;> simp [isRun, textRunContent]
  | cons head tail =>
    obtain ⟨isRun, text, isSome⟩ := fromChild head (by simp)
    have holds : textOf (head :: tail) ≠ [] ↔ runText vocabulary child ≠ [] := by
      rw [textOf_ne_nil_iff]
      constructor
      · rintro ⟨cell, member, char⟩
        exact (fromChild cell member).2.2.1 char
      · intro filled
        exact ⟨head, by simp, isSome.2 filled⟩
    rw [rebuiltChild?, text, keptContent, if_neg (List.cons_ne_nil head tail), Option.toList_some,
      List.flatMap_singleton]
    unfold textRunContent
    rw [isNamed_rebuildRun, runText_rebuildRun]
    by_cases filled : runText vocabulary child ≠ []
    · rw [if_pos ⟨isRun, holds.2 filled⟩, if_pos ⟨isRun, filled⟩]
      cases place : child.childIndex? vocabulary.text with
      | none => exact absurd (runText_of_childIndex?_eq_none vocabulary place) filled
      | some index => exact otherContent_rebuildRun vocabulary place _
    · rw [if_neg fun both => filled (holds.1 both.2), if_neg fun both => filled both.2]

theorem keptContent_sublist (cells : List Cell) (number : Nat) (paragraph : Element)
    (item : Element × Nat) (_ : item ∈ paragraph.children.zipIdx) :
    (keptContent vocabulary (inRun item.2 (inParagraph number cells)) item.1).Sublist
      (textRunContent vocabulary item.1) := by
  unfold keptContent
  split
  · exact List.nil_sublist _
  · exact List.Sublist.refl _

theorem keptContent_eq_iff (own : List Cell) (child : Element) :
    keptContent vocabulary own child = textRunContent vocabulary child ↔
      (textRunContent vocabulary child ≠ [] → own ≠ []) := by
  unfold keptContent
  by_cases gone : own = []
  · rw [if_pos gone]
    constructor
    · intro empty filled
      exact absurd empty.symm filled
    · intro kept
      by_contra filled
      exact kept (Ne.symm filled) gone
  · simp [gone]

theorem content_eq_flatMap_zipIdx (group : List Element) :
    content vocabulary group = group.zipIdx.flatMap fun (paragraph, _) =>
      paragraph.children.zipIdx.flatMap fun (child, _) => textRunContent vocabulary child := by
  have forget : ∀ (items : List Element) (f : Element → List Element),
      items.flatMap f = items.zipIdx.flatMap fun item => f item.1 := by
    intro items f
    rw [← List.flatMap_map Prod.fst f, List.zipIdx_map_fst]
  rw [content, forget group]
  apply List.flatMap_congr
  rintro ⟨paragraph, number⟩ _
  exact forget paragraph.children (textRunContent vocabulary)

/-- Joined parts of lists are all of them only where each part is all of its list. -/
theorem flatMap_eq_iff_of_sublist {α β : Type} {items : List α} {part whole : α → List β}
    (sublist : ∀ item, item ∈ items → (part item).Sublist (whole item)) :
    items.flatMap part = items.flatMap whole ↔ ∀ item, item ∈ items → part item = whole item := by
  induction items with
  | nil => simp
  | cons item items ih =>
    have first := sublist item (by simp)
    have others : ∀ other, other ∈ items → (part other).Sublist (whole other) :=
      fun other member => sublist other (List.mem_cons_of_mem _ member)
    rw [List.flatMap_cons, List.flatMap_cons, List.forall_mem_cons, ← ih others]
    constructor
    · intro same
      have length := congrArg List.length same
      have firstLength := first.length_le
      have otherLength := (List.Sublist.flatMap_right items others).length_le
      rw [List.length_append, List.length_append] at length
      exact ⟨first.eq_of_length (by omega),
        (List.Sublist.flatMap_right items others).eq_of_length (by omega)⟩
    · rintro ⟨here, there⟩
      rw [here, there]

variable {group : List Element} {cells : List Cell} (placed : Placed vocabulary group cells)
include placed

/-- The content of a rebuilt group is that of the runs that have a cell. -/
theorem content_regroup :
    content vocabulary (regroup vocabulary group cells)
      = group.zipIdx.flatMap fun (paragraph, number) =>
        paragraph.children.zipIdx.flatMap fun (child, index) =>
          keptContent vocabulary (inRun index (inParagraph number cells)) child := by
  rw [content, regroup, List.flatMap_map]
  apply List.flatMap_congr
  rintro ⟨paragraph, number⟩ indexed
  have paragraphAt := List.mk_mem_zipIdx_iff_getElem?.1 indexed
  dsimp only [regroupParagraph]
  rw [List.flatMap_map, survivors, List.filterMap_eq_flatMap_toList,
    List.flatMap_assoc]
  apply List.flatMap_congr
  rintro ⟨child, index⟩ indexed
  have childAt := List.mk_mem_zipIdx_iff_getElem?.1 indexed
  dsimp only
  rw [Option.toList_map, List.flatMap_map, ← textRunContent_rebuiltChild?]
  intro cell member
  have leads := placed.leadsTo paragraphAt childAt member
  exact ⟨leads.isRun, leads.text_at, leads.isSome_char_iff⟩

/-- Rebuilding a group adds no content and changes none. -/
theorem content_regroup_sublist :
    (content vocabulary (regroup vocabulary group cells)).Sublist (content vocabulary group) := by
  rw [content_regroup vocabulary placed, content_eq_flatMap_zipIdx]
  apply List.Sublist.flatMap_right
  rintro ⟨paragraph, number⟩ _
  exact List.Sublist.flatMap_right _ (keptContent_sublist vocabulary cells number paragraph)

/-- No content is lost exactly when every run that holds text and content has a cell. -/
theorem content_regroup_eq_iff :
    content vocabulary (regroup vocabulary group cells) = content vocabulary group ↔
      ∀ number paragraph index child, group[number]? = some paragraph →
        paragraph.children[index]? = some child → textRunContent vocabulary child ≠ [] →
        inRun index (inParagraph number cells) ≠ [] := by
  have inParagraphs := fun number paragraph => flatMap_eq_iff_of_sublist
    (keptContent_sublist vocabulary cells number paragraph)
  rw [content_regroup vocabulary placed, content_eq_flatMap_zipIdx, flatMap_eq_iff_of_sublist]
  · constructor
    · intro same number paragraph index child paragraphAt childAt filled
      have paragraphSame := same (paragraph, number) (List.mk_mem_zipIdx_iff_getElem?.2 paragraphAt)
      have childSame := (inParagraphs number paragraph).1 paragraphSame (child, index)
        (List.mk_mem_zipIdx_iff_getElem?.2 childAt)
      exact (keptContent_eq_iff vocabulary _ child).1 childSame filled
    · rintro kept ⟨paragraph, number⟩ indexed
      apply (inParagraphs number paragraph).2
      rintro ⟨child, index⟩ childIndexed
      exact (keptContent_eq_iff vocabulary _ child).2
        (kept number paragraph index child (List.mk_mem_zipIdx_iff_getElem?.1 indexed)
          (List.mk_mem_zipIdx_iff_getElem?.1 childIndexed))
  · rintro ⟨paragraph, number⟩ _
    exact List.Sublist.flatMap_right _ (keptContent_sublist vocabulary cells number paragraph)

/-- Each element occurs as often as before exactly when every run that holds text and content has a
cell. -/
theorem count_content_regroup_iff :
    (∀ element, (content vocabulary (regroup vocabulary group cells)).count element
      = (content vocabulary group).count element) ↔
      ∀ number paragraph index child, group[number]? = some paragraph →
        paragraph.children[index]? = some child → textRunContent vocabulary child ≠ [] →
        inRun index (inParagraph number cells) ≠ [] := by
  rw [← content_regroup_eq_iff vocabulary placed]
  constructor
  · intro counts
    exact (content_regroup_sublist vocabulary placed).eq_of_length
      (List.perm_iff_count.2 counts).length_eq
  · intro same element
    rw [same]

end

end MailMerge.Run
