import MailMerge.Proofs.Fill.RunContent
import MailMerge.Proofs.Fill.ValuePlace
import MailMerge.Proofs.Run.Unedited

set_option autoImplicit false

namespace MailMerge.Fill

open Markup (Element)
open Run (Cell Cursor)

/-- A scan replaces nothing exactly if no path that it asks for has a value. -/
theorem replaced_scan_eq_zero_iff {α : Type} (char : α → Option Char) (markers : Markers)
    (resolve : Text → Option Text) (units : List α) :
    (scan char markers resolve units).tally.replaced = 0 ↔
      ∀ path, path ∈ (scan char markers resolve units).asked → resolve path = none := by
  fun_induction scan char markers resolve units with
  | case1 units found => simp [Scan.tally, Scan.asked]
  | case2 units before rest found => simp [Scan.tally, Scan.asked]
  | case3 units before span path after found missing ih =>
    rw [Scan.tally, Scan.asked, ih, List.forall_mem_cons]
    exact ⟨fun others => ⟨missing, others⟩, fun all => all.2⟩
  | case4 units before span path after found value present ih =>
    rw [Scan.tally, Scan.asked, List.forall_mem_cons, present]
    simp

namespace Guide

section

variable (guide : Guide) (resolve : Text → Option Text) (group : List Element)

/-- No path that the pass over a group asks for has a value. -/
def FindsNothing : Prop :=
  ∀ path, path ∈ (pass guide.markers (Cursor.ofCells (guide.row group))).asked resolve →
    resolve path = none

theorem findsNothing_iff :
    guide.FindsNothing resolve group ↔
      (scan Cell.char guide.markers resolve (guide.row group)).tally.replaced = 0 := by
  rw [FindsNothing, asked_pass, replaced_scan_eq_zero_iff]
  rfl

theorem replaced_eq_zero_iff {tally : Tally}
    (success : (guide.passed resolve group).outcome = .ok tally) :
    tally.replaced = 0 ↔ guide.FindsNothing resolve group := by
  rw [outcome_passed] at success
  rw [findsNothing_iff, Scan.tally_of_outcome success]

variable {resolve group} in
/-- Without a value the row stays as it was read, also when the pass fails. -/
theorem edited_eq_row (nothing : guide.FindsNothing resolve group) :
    guide.edited resolve group = guide.row group := by
  rw [findsNothing_iff] at nothing
  rw [← result_pieces_row, pieces, result_pieces_of_replaced_eq_zero [] nothing, source_scan]

variable {resolve group} in
theorem result_fillGroup_of_findsNothing (nothing : guide.FindsNothing resolve group) :
    ((guide.fillGroup group).run resolve).result = group := by
  cases outcome : (guide.passed resolve group).outcome with
  | error error => rw [run_fillGroup_of_error outcome]
  | ok tally =>
    rw [result_fillGroup guide resolve group outcome,
      if_pos ((guide.replaced_eq_zero_iff resolve group outcome).2 nothing)]

variable {group}

/-- Rebuilding a group from the row that was read from it gives the group back exactly if the first
text elements of its runs hold nothing but data. A pass that replaces nothing, however many
placeholders it leaves, keeps this row as it is, and then the group is left alone: with plain text
elements, and only with them, it would be the same if it were rebuilt. -/
theorem rebuild_without_value_iff
    (paragraphs : ∀ element, element ∈ group → guide.isParagraph element = true) :
    (Run.rebuild guide.vocabulary group group.length (guide.row group) = group ↔
        Run.PlainTexts guide.vocabulary group) ∧
      ∀ resolve,
        (∀ tally, (guide.passed resolve group).outcome = .ok tally →
          (tally.replaced = 0 ↔ guide.FindsNothing resolve group)) ∧
        (guide.FindsNothing resolve group →
          let edited := guide.edited resolve group
          let filled := ((guide.fillGroup group).run resolve).result
          edited = guide.row group ∧ filled = group ∧
            (Run.rebuild guide.vocabulary group group.length edited = filled ↔
              Run.PlainTexts guide.vocabulary group)) := by
  have unedited := Run.rebuild_flatten_eq_self_iff guide.vocabulary paragraphs
  refine ⟨unedited, fun resolve => ⟨fun tally success => ?_, fun nothing => ?_⟩⟩
  · exact guide.replaced_eq_zero_iff resolve group success
  · have same := guide.edited_eq_row nothing
    have filled := guide.result_fillGroup_of_findsNothing nothing
    refine ⟨same, filled, ?_⟩
    rw [same, filled]
    exact unedited

end

end Guide

/-- Two placeholders without a value, one of them over a bookmark and a tab. The paragraphs come out
as they were, rebuilt or not; with a tab inside a text element they would not. -/
theorem unresolved_group_rebuilt :
    let group := [paragraphOf [textRun ['{', '{', 'a'], bookmarkEnd, tabRun ['}', '}', '.']],
      paragraphOf [], paragraphOf [textRun [], textRun ['{', '{', '}', '}']]]
    let nested := [paragraphOf [⟨Vocabulary.standard.run, [], [],
      [⟨Vocabulary.standard.text, [], ['a'], [tab], false⟩], false⟩]]
    let resolve := fun _ : Text => none
    (Guide.standard.passed resolve group).outcome = .ok ⟨0, 2⟩ ∧
      Guide.standard.edited resolve group = Guide.standard.row group ∧
      Run.rebuild Vocabulary.standard group group.length (Guide.standard.edited resolve group)
        = group ∧
      Run.rebuild Vocabulary.standard nested nested.length (Guide.standard.row nested)
        ≠ nested := by
  intro group nested resolve
  have paragraphs : ∀ element, element ∈ group → Guide.standard.isParagraph element = true := by
    decide
  have success : (Guide.standard.passed resolve group).outcome = .ok ⟨0, 2⟩ := by cbv
  have plain : Run.PlainTexts Vocabulary.standard group := by decide
  have notPlain : ¬ Run.PlainTexts Vocabulary.standard nested := by decide
  obtain ⟨_, without⟩ := Guide.rebuild_without_value_iff Guide.standard paragraphs
  obtain ⟨counted, kept⟩ := without resolve
  obtain ⟨same, filled, rebuilt⟩ := kept ((counted _ success).1 rfl)
  have nestedParagraphs : ∀ element, element ∈ nested →
      Guide.standard.isParagraph element = true := by
    decide
  obtain ⟨unedited, _⟩ := Guide.rebuild_without_value_iff Guide.standard nestedParagraphs
  exact ⟨success, same, (rebuilt.2 plain).trans filled, fun back => notPlain (unedited.1 back)⟩

end MailMerge.Fill
