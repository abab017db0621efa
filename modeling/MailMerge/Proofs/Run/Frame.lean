import MailMerge.Proofs.Run.Content
import Mathlib.Data.List.Forall2

set_option autoImplicit false

namespace MailMerge.Run

open Markup (Element)

/-- A run without what its first text element holds. -/
def hideText (vocabulary : Vocabulary) (run : Element) : Element :=
  { run with children := run.children.zipIdx.map fun (child, index) =>
      if some index = run.childIndex? vocabulary.text then child.shell else child }

/-- What is left of a row of children, in order: every child that is not a run, and some of the
runs, changed in what their first text element holds only. -/
inductive Thinned (vocabulary : Vocabulary) : List Element → List Element → Prop
  | nil : Thinned vocabulary [] []
  | other {child : Element} {source left : List Element}
      (notRun : child.isNamed vocabulary.run = false) (rest : Thinned vocabulary source left) :
      Thinned vocabulary (child :: source) (child :: left)
  | gone {child : Element} {source left : List Element}
      (isRun : child.isNamed vocabulary.run = true) (rest : Thinned vocabulary source left) :
      Thinned vocabulary (child :: source) left
  | kept {child run : Element} {source left : List Element}
      (isRun : child.isNamed vocabulary.run = true)
      (same : hideText vocabulary run = hideText vocabulary child)
      (rest : Thinned vocabulary source left) :
      Thinned vocabulary (child :: source) (run :: left)

def notRuns (vocabulary : Vocabulary) (children : List Element) : List Element :=
  children.filter fun child => !child.isNamed vocabulary.run

def hiddenRuns (vocabulary : Vocabulary) (children : List Element) : List Element :=
  (children.filter fun child => child.isNamed vocabulary.run).map (hideText vocabulary)

/-- A paragraph that has the frame of another one. -/
structure KeepsFrame (vocabulary : Vocabulary) (source filled : Element) : Prop where
  name : filled.name = source.name
  attributes : filled.attributes = source.attributes
  data : filled.data = source.data
  selfClosing : filled.selfClosing = source.selfClosing
  notRuns : notRuns vocabulary filled.children = notRuns vocabulary source.children
  runs : (hiddenRuns vocabulary filled.children).Sublist (hiddenRuns vocabulary source.children)
  /-- Runs and other children keep their order among each other. -/
  thinned : Thinned vocabulary source.children filled.children

section

variable (vocabulary : Vocabulary)

theorem isNamed_of_hideText_eq {first second : Element}
    (same : hideText vocabulary first = hideText vocabulary second) (name : Text) :
    first.isNamed name = second.isNamed name := by
  have names : (hideText vocabulary first).name = (hideText vocabulary second).name :=
    congrArg Element.name same
  exact congrArg (· == name) names

theorem Thinned.refl (children : List Element) : Thinned vocabulary children children := by
  induction children with
  | nil => exact .nil
  | cons child rest ih =>
    cases isRun : child.isNamed vocabulary.run with
    | false => exact .other isRun ih
    | true => exact .kept isRun rfl ih

variable {vocabulary}

theorem Thinned.notRuns_eq {source left : List Element} (thinned : Thinned vocabulary source left) :
    notRuns vocabulary left = notRuns vocabulary source := by
  induction thinned with
  | nil => rfl
  | other notRun _ ih =>
    rw [notRuns, List.filter_cons_of_pos (by simp [notRun]), notRuns,
      List.filter_cons_of_pos (by simp [notRun])]
    exact congrArg _ ih
  | gone isRun _ ih =>
    rw [ih, notRuns, notRuns, List.filter_cons_of_neg (by simp [isRun])]
  | kept isRun same _ ih =>
    have named := (isNamed_of_hideText_eq vocabulary same vocabulary.run).trans isRun
    rw [notRuns, List.filter_cons_of_neg (by simp [named]), notRuns,
      List.filter_cons_of_neg (by simp [isRun])]
    exact ih

theorem Thinned.hiddenRuns_sublist {source left : List Element}
    (thinned : Thinned vocabulary source left) :
    (hiddenRuns vocabulary left).Sublist (hiddenRuns vocabulary source) := by
  induction thinned with
  | nil => exact .slnil
  | other notRun _ ih =>
    rw [hiddenRuns, List.filter_cons_of_neg (by simp [notRun]), hiddenRuns,
      List.filter_cons_of_neg (by simp [notRun])]
    exact ih
  | gone isRun _ ih =>
    rw [hiddenRuns.eq_def vocabulary (_ :: _), List.filter_cons_of_pos (by simp [isRun]),
      List.map_cons]
    exact .cons _ ih
  | kept isRun same _ ih =>
    have named := (isNamed_of_hideText_eq vocabulary same vocabulary.run).trans isRun
    rw [hiddenRuns, List.filter_cons_of_pos (by simp [named]), hiddenRuns,
      List.filter_cons_of_pos (by simp [isRun]), List.map_cons, List.map_cons, same]
    exact .cons_cons _ ih

/-- A paragraph has the frame of another one when it is this one with thinned children. -/
theorem Thinned.keepsFrame {source : Element} {left : List Element}
    (thinned : Thinned vocabulary source.children left) :
    KeepsFrame vocabulary source { source with children := left } :=
  ⟨rfl, rfl, rfl, rfl, thinned.notRuns_eq, thinned.hiddenRuns_sublist, thinned⟩

theorem forall₂_keepsFrame_self (group : List Element) :
    List.Forall₂ (KeepsFrame vocabulary) group group := by
  apply List.forall₂_same.2
  rintro ⟨name, attributes, data, children, selfClosing⟩ _
  exact (Thinned.refl vocabulary children).keepsFrame

end

section

variable (vocabulary : Vocabulary)

/-- A run that is rebuilt differs from its source in what its first text element holds only. -/
theorem hideText_rebuildRun {run : Element} {text : Text}
    (fits : run.childIndex? vocabulary.text = none → text = []) :
    hideText vocabulary (rebuildRun vocabulary run (run.childIndex? vocabulary.text) text)
      = hideText vocabulary run := by
  have children : (hideText vocabulary
        (rebuildRun vocabulary run (run.childIndex? vocabulary.text) text)).children
      = (hideText vocabulary run).children := by
    rw [hideText, childIndex?_rebuildRun vocabulary fits, children_rebuildRun vocabulary fits,
      zipIdx_map_zipIdx, List.map_map, hideText]
    apply List.map_congr_left
    rintro ⟨child, index⟩ _
    dsimp only [Function.comp_apply]
    split <;> rfl
  exact congrArg (fun left => ({ run with children := left } : Element)) children

variable {vocabulary} {group : List Element} {cells : List Cell}

/-- What is left of a child, by its kind and by whether it has cells. -/
theorem rebuiltChild?_cases (placed : Placed vocabulary group cells) {number index : Nat}
    {paragraph child : Element} (paragraphAt : group[number]? = some paragraph)
    (childAt : paragraph.children[index]? = some child) :
    let own := inRun index (inParagraph number cells)
    child.isNamed vocabulary.run = false ∧ rebuiltChild? vocabulary own child = some child ∨
      child.isNamed vocabulary.run = true ∧ own = [] ∧ rebuiltChild? vocabulary own child = none ∨
      child.isNamed vocabulary.run = true ∧ own ≠ [] ∧
        (textOf own = [] ↔ runText vocabulary child = []) ∧
        rebuiltChild? vocabulary own child = some
          (rebuildRun vocabulary child (child.childIndex? vocabulary.text) (textOf own)) := by
  intro own
  have leads : ∀ cell, cell ∈ own → cell.LeadsTo vocabulary group paragraph child :=
    fun cell member => placed.leadsTo paragraphAt childAt member
  cases same : own with
  | nil =>
    cases isRun : child.isNamed vocabulary.run with
    | false => exact Or.inl ⟨rfl, by simp [rebuiltChild?, isRun]⟩
    | true => exact Or.inr (Or.inl ⟨rfl, rfl, by simp [rebuiltChild?, isRun]⟩)
  | cons head tail =>
    have headLeads := leads head (by simp [same])
    refine Or.inr (Or.inr ⟨headLeads.isRun, List.cons_ne_nil head tail, ?_, ?_⟩)
    · rw [← same, ← not_iff_not, ← ne_eq, textOf_ne_nil_iff]
      constructor
      · rintro ⟨cell, member, isSome⟩
        exact (leads cell member).isSome_char_iff.1 isSome
      · intro filled
        exact ⟨head, by simp [same], headLeads.isSome_char_iff.2 filled⟩
    · rw [rebuiltChild?, headLeads.text_at]

/-- What is left of a paragraph's children is thinned. -/
theorem thinned_survivors (placed : Placed vocabulary group cells) {number : Nat}
    {paragraph : Element} (paragraphAt : group[number]? = some paragraph) :
    Thinned vocabulary paragraph.children
      ((survivors vocabulary (inParagraph number cells) paragraph).map Prod.snd) := by
  -- The children behind the first ones, by induction on how many there are.
  suffices general : ∀ front behind : List Element, paragraph.children = front ++ behind →
      Thinned vocabulary behind (((behind.zipIdx front.length).filterMap fun (child, index) =>
        (rebuiltChild? vocabulary (inRun index (inParagraph number cells)) child).map
          fun rebuilt => (index, rebuilt)).map Prod.snd) from general [] _ rfl
  intro front behind split
  induction behind generalizing front with
  | nil => exact .nil
  | cons child behind ih =>
    have rest := ih (front ++ [child]) (by simpa using split)
    have childAt : paragraph.children[front.length]? = some child := by simp [split]
    rw [List.length_append, List.length_singleton] at rest
    rw [List.zipIdx_cons, List.filterMap_cons]
    rcases rebuiltChild?_cases placed paragraphAt childAt with
      ⟨notRun, left⟩ | ⟨isRun, _, left⟩ | ⟨isRun, _, filled, left⟩
    · simp only [left, Option.map_some, List.map_cons]
      exact .other notRun rest
    · simp only [left, Option.map_none]
      exact .gone isRun rest
    · simp only [left, Option.map_some, List.map_cons]
      refine .kept isRun (hideText_rebuildRun vocabulary fun absent => ?_) rest
      exact filled.2 (runText_of_childIndex?_eq_none vocabulary absent)

/-- A rebuilt group keeps the frames of its paragraphs. -/
theorem forall₂_keepsFrame_regroup (placed : Placed vocabulary group cells) :
    List.Forall₂ (KeepsFrame vocabulary) group (regroup vocabulary group cells) := by
  have paired : List.Forall₂ (KeepsFrame vocabulary) (group.zipIdx.map Prod.fst)
      (regroup vocabulary group cells) := by
    rw [regroup, List.forall₂_map_left_iff, List.forall₂_map_right_iff, List.forall₂_same]
    rintro ⟨paragraph, number⟩ indexed
    exact (thinned_survivors placed (List.mk_mem_zipIdx_iff_getElem?.1 indexed)).keepsFrame
  rwa [List.zipIdx_map_fst] at paired

end

end MailMerge.Run
