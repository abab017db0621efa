import MailMerge.Proofs.Fill.RunContent
import MailMerge.Proofs.Fill.ValuePlace
import MailMerge.Proofs.Run.Frame

set_option autoImplicit false

namespace MailMerge.Fill

open Markup (Element)

namespace Guide

section

variable (guide : Guide) (resolve : Text → Option Text) {group : List Element}

/-- The result of filling a group is the group itself, or the group rebuilt from the row that the
pass left. -/
theorem result_fillGroup_cases
    (paragraphs : ∀ element, element ∈ group → guide.isParagraph element = true) :
    ((guide.fillGroup group).run resolve).result = group ∨
      ((guide.fillGroup group).run resolve).result
        = Run.regroup guide.vocabulary group (guide.edited resolve group) := by
  cases outcome : (guide.passed resolve group).outcome with
  | error error =>
    left
    rw [run_fillGroup_of_error outcome]
  | ok tally =>
    by_cases nothing : tally.replaced = 0
    · left
      rw [guide.result_fillGroup resolve group outcome, if_pos nothing]
    · exact Or.inr (guide.result_fillGroup_of_ne_zero resolve paragraphs outcome nothing)

theorem length_result_fillGroup
    (paragraphs : ∀ element, element ∈ group → guide.isParagraph element = true) :
    ((guide.fillGroup group).run resolve).result.length = group.length := by
  rcases guide.result_fillGroup_cases resolve paragraphs with same | regrouped
  · rw [same]
  · rw [regrouped, Run.regroup, List.length_map, List.length_zipIdx]

/-- Filling gives one paragraph for each paragraph of the group, in order, and each one has the
frame of its source: the same name, attributes, data and flag, the same children that are not
runs, and some of its runs, with the same content beside their first text element, all in their
old order. -/
theorem fillGroup_keepsFrame
    (paragraphs : ∀ element, element ∈ group → guide.isParagraph element = true) :
    List.Forall₂ (Run.KeepsFrame guide.vocabulary) group
      ((guide.fillGroup group).run resolve).result := by
  rcases guide.result_fillGroup_cases resolve paragraphs with same | regrouped
  · rw [same]
    exact Run.forall₂_keepsFrame_self group
  · rw [regrouped]
    exact Run.forall₂_keepsFrame_regroup (guide.placed_edited resolve paragraphs)

end

end Guide

/-- The placeholder begins in the first paragraph and ends in the second. Two runs are gone, and the
bookmark and the tab stay. -/
theorem frame_kept_over_two_paragraphs :
    let group := [paragraphOf [textRun ['x', '{', '{'], bookmarkEnd, textRun ['a']],
      paragraphOf [textRun ['}', '}'], tabRun ['y']]]
    let filled := [paragraphOf [textRun ['x', 'A'], bookmarkEnd], paragraphOf [tabRun ['y']]]
    (∀ element, element ∈ group → Guide.standard.isParagraph element = true) ∧
      ((Guide.standard.fillGroup group).run fun _ => some ['A']).result = filled ∧
      List.Forall₂ (Run.KeepsFrame Vocabulary.standard) group filled := by
  intro group filled
  have paragraphs : ∀ element, element ∈ group → Guide.standard.isParagraph element = true := by
    decide
  have result : ((Guide.standard.fillGroup group).run fun _ => some ['A']).result = filled := by
    cbv
  have kept := Guide.fillGroup_keepsFrame Guide.standard (fun _ => some ['A']) paragraphs
  rw [result] at kept
  exact ⟨paragraphs, result, kept⟩

end MailMerge.Fill
