import Mathlib.Algebra.Order.BigOperators.Group.List
import Mathlib.Algebra.Order.Group.Nat
import MailMerge.Proofs.Fill.FilledGroups

/-!
The paragraphs that a walk leaves alone when only leading paragraphs are filled. Those that are
counted stand in elements that begin with a paragraph. An element that begins with anything else is
searched without a word about its own paragraphs, so they are missing from the count.
-/

set_option autoImplicit false

namespace MailMerge.Fill

open Markup (Element)

namespace Guide

def beginsWithParagraph (guide : Guide) (element : Element) : Bool :=
  element.children.head?.any guide.isParagraph

mutual

/-- The elements that are visited when only leading paragraphs are filled, in document order: the
element and, unless it begins with a paragraph, what is visited from its children on. -/
def visited (guide : Guide) : Element → List Element
  | ⟨name, attributes, data, children, selfClosing⟩ =>
    ⟨name, attributes, data, children, selfClosing⟩ ::
      if children.head?.any guide.isParagraph then [] else guide.visitedAll children

/-- The elements that are visited from those of a list on. -/
def visitedAll (guide : Guide) : List Element → List Element
  | [] => []
  | element :: rest => guide.visited element ++ guide.visitedAll rest

end

/-- The number of paragraphs in an element that stand behind a sibling of another kind. -/
def leftAlone (guide : Guide) (element : Element) : Nat :=
  (element.children.dropWhile guide.isParagraph).countP guide.isParagraph

/-- The visited elements whose leading paragraphs are filled. -/
def containers (guide : Guide) (root : Element) : List Element :=
  (guide.visited root).filter guide.beginsWithParagraph

/-- The warning about an element in which paragraphs are left alone. -/
def warning? (guide : Guide) (element : Element) : Option Warning :=
  if guide.leftAlone element = 0 then none else some ⟨element.name, guide.leftAlone element⟩

/-- A walk reports the paragraphs that are left alone in some elements: their number in its report,
and a warning for each element, in order. -/
structure Tells {α : Type} (guide : Guide) (walked : Walked α) (elements : List Element) :
    Prop where
  count : walked.report.truncatedParagraphs = (elements.map guide.leftAlone).sum
  warnings : walked.warnings = elements.filterMap guide.warning?

section

variable {α β γ : Type} {guide : Guide} {resolve : Text → Option Text}

theorem Tells.map {walked : Walked α} {elements : List Element}
    (tells : guide.Tells walked elements) (f : α → β) : guide.Tells (walked.map f) elements :=
  ⟨tells.count, tells.warnings⟩

theorem Tells.join {first : Walked α} {second : Walked β} {elements others : List Element}
    (tells : guide.Tells first elements) (tellsOthers : guide.Tells second others)
    (f : α → β → γ) : guide.Tells (first.join f second) (elements ++ others) := by
  constructor
  · rw [List.map_append, List.sum_append, ← tells.count, ← tellsOthers.count]
    rfl
  · rw [List.filterMap_append, ← tells.warnings, ← tellsOthers.warnings]
    rfl

/-- Filling a group leaves no paragraph alone. -/
theorem tells_fillGroup (group : List Element) :
    guide.Tells ((guide.fillGroup group).run resolve) [] := by
  by_cases empty : guide.row group = []
  · rw [fillGroup_of_row_eq_nil empty]
    exact ⟨rfl, rfl⟩
  · cases outcome : (guide.passed resolve group).outcome with
    | error error =>
      rw [run_fillGroup_of_error outcome]
      exact ⟨rfl, rfl⟩
    | ok tally =>
      rw [run_fillGroup_of_ok empty outcome]
      exact ⟨rfl, rfl⟩

/-- Two things done one after the other succeed only if both do, and then their walks are joined. -/
theorem join_of_success {f : α → β → γ} {first : Walked α} {untouched : β}
    {next : Dialogue (Walked β)}
    (success : ((followedBy f first untouched next).run resolve).failure = none) :
    first.failure = none ∧ (next.run resolve).failure = none ∧
      (followedBy f first untouched next).run resolve = first.join f (next.run resolve) := by
  rw [run_followedBy] at success ⊢
  cases failure : first.failure with
  | some error =>
    rw [failure, Option.isSome_some, if_pos rfl, Walked.map, failure] at success
    cases success
  | none =>
    rw [failure, Option.isSome_none, if_neg Bool.false_ne_true] at success
    rw [Option.isSome_none, if_neg Bool.false_ne_true]
    exact ⟨rfl, success, rfl⟩

theorem tells_fillLeading {element : Element}
    (success : ((guide.fillLeading element.name element.children).run resolve).failure = none) :
    guide.Tells ((guide.fillLeading element.name element.children).run resolve) [element] := by
  rw [fillLeading, Dialogue.run_bind] at success ⊢
  obtain ⟨_, _, joined⟩ := join_of_success success
  rw [joined]
  have others : guide.Tells
      (guide.truncated element.name (element.children.dropWhile guide.isParagraph)) [element] := by
    constructor
    · exact (Nat.add_zero _).symm
    · rw [truncated, List.filterMap_cons, warning?, leftAlone]
      dsimp only
      split <;> rfl
  exact (tells_fillGroup _).join others _

theorem walkTruncate_eq (element : Element) :
    guide.walkTruncate element =
      (if guide.beginsWithParagraph element then guide.fillLeading element.name element.children
        else guide.walkTruncateAll element.children).bind fun inside =>
          .done (inside.map fun children => { element with children := children }) := by
  obtain ⟨name, attributes, data, children, selfClosing⟩ := element
  rw [walkTruncate.eq_def]
  cases children <;> rfl

theorem containers_eq (element : Element) :
    guide.containers element =
      if guide.beginsWithParagraph element then [element]
      else (guide.visitedAll element.children).filter guide.beginsWithParagraph := by
  obtain ⟨name, attributes, data, children, selfClosing⟩ := element
  rw [containers, visited]
  by_cases begins : guide.beginsWithParagraph ⟨name, attributes, data, children, selfClosing⟩
  · have leading : children.head?.any guide.isParagraph = true := begins
    rw [leading, if_pos rfl, if_pos begins, List.filter_cons_of_pos begins, List.filter_nil]
  · have other : ¬ children.head?.any guide.isParagraph = true := begins
    rw [if_neg other, if_neg begins, List.filter_cons_of_neg begins]

-- The walk goes through an element and through a list of elements by turns, and so does the proof.
mutual

theorem tells_walkTruncate : ∀ element : Element,
    ((guide.walkTruncate element).run resolve).failure = none →
      guide.Tells ((guide.walkTruncate element).run resolve) (guide.containers element)
  | ⟨name, attributes, data, children, selfClosing⟩ => by
    intro success
    rw [walkTruncate_eq, Dialogue.run_bind] at success ⊢
    rw [containers_eq]
    by_cases begins : guide.beginsWithParagraph ⟨name, attributes, data, children, selfClosing⟩
    · rw [if_pos begins] at success
      rw [if_pos begins, if_pos begins]
      exact (tells_fillLeading success).map _
    · rw [if_neg begins] at success
      rw [if_neg begins, if_neg begins]
      exact (tells_walkTruncateAll children success).map _

theorem tells_walkTruncateAll : ∀ elements : List Element,
    ((guide.walkTruncateAll elements).run resolve).failure = none →
      guide.Tells ((guide.walkTruncateAll elements).run resolve)
        ((guide.visitedAll elements).filter guide.beginsWithParagraph)
  | [] => fun _ => ⟨rfl, rfl⟩
  | element :: rest => by
    intro success
    rw [walkTruncateAll, Dialogue.run_bind] at success ⊢
    obtain ⟨first, second, joined⟩ := join_of_success success
    rw [joined, visitedAll, List.filter_append]
    exact (tells_walkTruncate element first).join (tells_walkTruncateAll rest second) _

end

end

/-- In an element that begins with another child, all paragraphs stand behind that child. -/
theorem leftAlone_eq_zero_iff {guide : Guide} {element : Element}
    (other : guide.beginsWithParagraph element = false) :
    guide.leftAlone element = 0 ↔
      ∀ child, child ∈ element.children → guide.isParagraph child = false := by
  have all : element.children.dropWhile guide.isParagraph = element.children := by
    cases children : element.children with
    | nil => rfl
    | cons first rest =>
      have differs : guide.isParagraph first = false := by
        simpa [beginsWithParagraph, children] using other
      exact List.dropWhile_cons_of_neg (by simp [differs])
  rw [leftAlone, all, List.countP_eq_zero]
  simp only [Bool.not_eq_true]

/-- Counting in some of the elements only finds everything if there is nothing in the others. -/
theorem sum_map_filter_eq_iff {α : Type} (kind : α → Bool) (count : α → Nat) (items : List α) :
    ((items.filter kind).map count).sum = (items.map count).sum ↔
      ∀ item, item ∈ items → kind item = false → count item = 0 := by
  induction items with
  | nil => simp
  | cons item rest ih =>
    have fewer : ((rest.filter kind).map count).sum ≤ (rest.map count).sum :=
      (List.filter_sublist.map count).sum_le_sum fun _ _ => Nat.zero_le _
    rw [List.forall_mem_cons, ← ih, List.map_cons, List.sum_cons]
    cases own : kind item with
    | true =>
      rw [List.filter_cons_of_pos own, List.map_cons, List.sum_cons]
      simp
    | false =>
      rw [List.filter_cons_of_neg (by simp [own])]
      simp only [forall_const]
      omega

/-- The walk reports the paragraphs that are left alone in the elements whose leading paragraphs it
fills, by their number and with a warning for each such element. These are all that stand behind a
sibling of another kind exactly if no visited element that begins with another child holds a
paragraph. -/
theorem truncatedParagraphs_walk (guide : Guide) (resolve : Text → Option Text) (root : Element)
    (policy : guide.policy = .truncate)
    (success : ((guide.walk root).run resolve).failure = none) :
    guide.Tells ((guide.walk root).run resolve) (guide.containers root) ∧
      (((guide.walk root).run resolve).report.truncatedParagraphs
          = ((guide.visited root).map guide.leftAlone).sum ↔
        ∀ element, element ∈ guide.visited root → guide.beginsWithParagraph element = false →
          ∀ child, child ∈ element.children → guide.isParagraph child = false) := by
  have tells : guide.Tells ((guide.walk root).run resolve) (guide.containers root) := by
    rw [walk, policy] at success ⊢
    exact tells_walkTruncate root success
  refine ⟨tells, ?_⟩
  rw [tells.count, containers, sum_map_filter_eq_iff]
  exact forall₃_congr fun _ _ other => leftAlone_eq_zero_iff other

end Guide

/-- A table stands in front of a paragraph. The paragraph is left alone, and nothing tells so. -/
theorem paragraph_behind_table_not_counted :
    let guide := Guide.standard
    let table := containerOf [containerOf []]
    let root := containerOf [table, paragraphOf [textRun ['{', '{', 'z', '}', '}']]]
    let resolve := fun _ : Text => some ['Z']
    (guide.walk root).run resolve = ⟨root, ⟨0, 0, 0, 0⟩, [], none⟩ ∧
      root ∈ guide.visited root ∧ guide.leftAlone root = 1 ∧
      ((guide.walk root).run resolve).report.truncatedParagraphs
        ≠ ((guide.visited root).map guide.leftAlone).sum := by
  intro guide table root resolve
  have walked : (guide.walk root).run resolve = ⟨root, ⟨0, 0, 0, 0⟩, [], none⟩ := by cbv
  have found : ((guide.visited root).map guide.leftAlone).sum = 1 := by cbv
  refine ⟨walked, List.mem_cons_self, by cbv, ?_⟩
  rw [walked, found]
  decide

/-- An inner element begins with a paragraph and holds two more behind a table. -/
theorem two_paragraphs_behind_table_counted :
    let guide := Guide.standard
    let placeholder := paragraphOf [textRun ['{', '{', 'a', '}', '}']]
    let table := containerOf []
    let body := containerOf [placeholder, table, placeholder, table, placeholder]
    let root := containerOf [table, body]
    let resolve := fun _ : Text => some ['A']
    guide.policy = .truncate ∧ ((guide.walk root).run resolve).failure = none ∧
      guide.Tells ((guide.walk root).run resolve) [body] ∧
      ((guide.walk root).run resolve).report.truncatedParagraphs = 2 ∧
      ((guide.walk root).run resolve).report.truncatedParagraphs
        = ((guide.visited root).map guide.leftAlone).sum := by
  intro guide placeholder table body root resolve
  have success : ((guide.walk root).run resolve).failure = none := by cbv
  have containers : guide.containers root = [body] := by cbv
  have quiet : ∀ element, element ∈ guide.visited root →
      guide.beginsWithParagraph element = false →
        ∀ child, child ∈ element.children → guide.isParagraph child = false := by decide
  obtain ⟨tells, all⟩ := guide.truncatedParagraphs_walk resolve root rfl success
  rw [containers] at tells
  exact ⟨rfl, success, tells, tells.count.trans (by cbv), all.2 quiet⟩

end MailMerge.Fill
