import MailMerge.Proofs.Fill.Filled
import MailMerge.Proofs.Run.Content

set_option autoImplicit false

namespace MailMerge.Fill

open Markup (Element)
open Run (Cell)

namespace Guide

section

variable (guide : Guide) (resolve : Text → Option Text) (group : List Element)

/-- The pass leaves a cell in a run: a cell outside the replaced placeholders, or a character of a
value. -/
def LeavesCell (paragraph run : Nat) : Prop :=
  (∃ cells cell, .kept cells ∈ guide.pieces resolve group ∧ cell ∈ cells ∧
      cell.origin.paragraph = paragraph ∧ cell.origin.run = run) ∨
    ∃ span value written cell, .replaced span value written ∈ guide.pieces resolve group ∧
      cell ∈ written ∧ cell.origin.paragraph = paragraph ∧ cell.origin.run = run

/-- The pass leaves a cell in every run that holds text and something else. -/
def LeavesContent : Prop :=
  ∀ number paragraph index run, group[number]? = some paragraph →
    paragraph.children[index]? = some run → run.isNamed guide.vocabulary.run = true →
    Run.runText guide.vocabulary run ≠ [] → Run.otherContent guide.vocabulary run ≠ [] →
    guide.LeavesCell resolve group number index

theorem leavesCell_iff (paragraph run : Nat) :
    guide.LeavesCell resolve group paragraph run ↔
      Run.inRun run (Run.inParagraph paragraph (guide.edited resolve group)) ≠ [] := by
  rw [← result_pieces_row]
  constructor
  · rintro (⟨cells, cell, kept, member, inside⟩ | ⟨span, value, written, cell, replaced, member,
      inside⟩)
    · exact List.ne_nil_of_mem
        (Run.mem_inRun_inParagraph.2 ⟨List.mem_flatMap.2 ⟨_, kept, member⟩, inside⟩)
    · exact List.ne_nil_of_mem
        (Run.mem_inRun_inParagraph.2 ⟨List.mem_flatMap.2 ⟨_, replaced, member⟩, inside⟩)
  · intro filled
    obtain ⟨cell, member⟩ := List.exists_mem_of_ne_nil _ filled
    obtain ⟨left, inside⟩ := Run.mem_inRun_inParagraph.1 member
    obtain ⟨piece, isPiece, inPiece⟩ := List.mem_flatMap.1 left
    cases piece with
    | kept cells => exact Or.inl ⟨cells, cell, isPiece, inPiece, inside⟩
    | replaced span value written =>
      exact Or.inr ⟨span, value, written, cell, isPiece, inPiece, inside⟩

theorem leavesContent_iff :
    guide.LeavesContent resolve group ↔
      ∀ number paragraph index child, group[number]? = some paragraph →
        paragraph.children[index]? = some child →
        Run.textRunContent guide.vocabulary child ≠ [] →
        Run.inRun index (Run.inParagraph number (guide.edited resolve group)) ≠ [] := by
  unfold LeavesContent
  simp only [leavesCell_iff, Run.textRunContent]
  constructor
  · intro leaves number paragraph index child paragraphAt childAt filled
    by_cases holds : child.isNamed guide.vocabulary.run = true
        ∧ Run.runText guide.vocabulary child ≠ []
    · rw [if_pos holds] at filled
      exact leaves number paragraph index child paragraphAt childAt holds.1 holds.2 filled
    · rw [if_neg holds] at filled
      exact absurd rfl filled
  · intro leaves number paragraph index child paragraphAt childAt isRun text filled
    apply leaves number paragraph index child paragraphAt childAt
    rwa [if_pos ⟨isRun, text⟩]

variable {group}

/-- A fill that replaces something adds nothing to the content of the runs that hold text, and loses
nothing of it exactly when a cell is left in every such run that has content. -/
theorem count_content_fillGroup_iff
    (paragraphs : ∀ element, element ∈ group → guide.isParagraph element = true) {tally : Tally}
    (success : (guide.passed resolve group).outcome = .ok tally)
    (someReplaced : 0 < tally.replaced) :
    let filled := ((guide.fillGroup group).run resolve).result
    (Run.content guide.vocabulary filled).Sublist (Run.content guide.vocabulary group) ∧
      ((∀ element, (Run.content guide.vocabulary filled).count element
          = (Run.content guide.vocabulary group).count element) ↔
        guide.LeavesContent resolve group) := by
  intro filled
  have regrouped : filled = Run.regroup guide.vocabulary group (guide.edited resolve group) :=
    guide.result_fillGroup_of_ne_zero resolve paragraphs success (by omega)
  have placed := guide.placed_edited resolve paragraphs
  rw [regrouped]
  refine ⟨Run.content_regroup_sublist guide.vocabulary placed, ?_⟩
  rw [Run.count_content_regroup_iff guide.vocabulary placed, leavesContent_iff]

end

end Guide

def tab : Element := ⟨['w', ':', 't', 'a', 'b'], [], [], [], true⟩

def tabRun (text : Text) : Element :=
  ⟨Vocabulary.standard.run, [], [], [tab, .ofData Vocabulary.standard.text text], false⟩

/-- The first run holds a tab and a placeholder, and the value goes into the second one. -/
theorem tab_lost_in_front_of_text :
    let group := [paragraphOf [tabRun ['{', '{', 'a', '}', '}'], textRun ['.']]]
    let filled := ((Guide.standard.fillGroup group).run fun _ => some ['A']).result
    (∀ element, element ∈ group → Guide.standard.isParagraph element = true) ∧
      (Guide.standard.passed (fun _ => some ['A']) group).outcome = .ok ⟨1, 0⟩ ∧
      ¬ (Run.content Vocabulary.standard filled).count tab
        = (Run.content Vocabulary.standard group).count tab := by
  intro group filled
  have paragraphs : ∀ element, element ∈ group → Guide.standard.isParagraph element = true := by
    decide
  have success : (Guide.standard.passed (fun _ => some ['A']) group).outcome = .ok ⟨1, 0⟩ := by
    cbv
  have result : filled = [paragraphOf [textRun ['A', '.']]] := by
    show ((Guide.standard.fillGroup group).run fun _ => some ['A']).result = _
    cbv
  have before : (Run.content Vocabulary.standard group).count tab = 1 := by cbv
  have after : (Run.content Vocabulary.standard filled).count tab = 0 := by
    rw [result]
    cbv
  refine ⟨paragraphs, success, ?_⟩
  rw [before, after]
  decide

/-- With text behind the placeholder, the run keeps a cell and its tab. -/
theorem content_kept_behind_tab :
    let group := [paragraphOf [tabRun ['{', '{', 'a', '}', '}', '.']]]
    let filled := ((Guide.standard.fillGroup group).run fun _ => some ['A']).result
    (Guide.standard.passed (fun _ => some ['A']) group).outcome = .ok ⟨1, 0⟩ ∧
      (Run.content Vocabulary.standard filled).Sublist (Run.content Vocabulary.standard group) ∧
      Guide.standard.LeavesContent (fun _ => some ['A']) group := by
  intro group filled
  have paragraphs : ∀ element, element ∈ group → Guide.standard.isParagraph element = true := by
    decide
  have success : (Guide.standard.passed (fun _ => some ['A']) group).outcome = .ok ⟨1, 0⟩ := by
    cbv
  obtain ⟨sublist, counts⟩ := Guide.count_content_fillGroup_iff Guide.standard
    (fun _ => some ['A']) paragraphs success (by decide)
  refine ⟨success, sublist, counts.1 fun element => ?_⟩
  have result : filled = [paragraphOf [tabRun ['A', '.']]] := by
    show ((Guide.standard.fillGroup group).run fun _ => some ['A']).result = _
    cbv
  show (Run.content Vocabulary.standard filled).count element
    = (Run.content Vocabulary.standard group).count element
  have same : Run.content Vocabulary.standard filled = Run.content Vocabulary.standard group := by
    rw [result]
    rfl
  rw [same]

end MailMerge.Fill
