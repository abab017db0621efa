import MailMerge.Fill.Processor
import MailMerge.Proofs.Fill.Provenance
import MailMerge.Proofs.Run.Reflatten

set_option autoImplicit false

namespace MailMerge.Fill

open Markup (Element)
open Run (Cell Cursor Ordered Placed)

namespace Guide

section

variable (guide : Guide) (resolve : Text → Option Text) (group : List Element)

def row : List Cell := Run.flatten guide.vocabulary group

def passed : Passed := (pass guide.markers (Cursor.ofCells (guide.row group))).run resolve

/-- The row when the pass is through. -/
def edited : List Cell := (guide.passed resolve group).cursor.cells

/-- The pieces that the pass makes the row of. -/
def pieces : List Piece := (scan Cell.char guide.markers resolve (guide.row group)).pieces []

/-- How a rebuilt group keeps a row. The row falls into pieces, of which some are placeholders with
their values and the others stay. -/
structure Keeps (tally : Tally) (edited : List Cell) (rebuilt : List Element)
    (pieces : List Piece) : Prop where
  source : pieces.flatMap Piece.source = guide.row group
  result : pieces.flatMap Piece.result = edited
  replaced : pieces.countP Piece.isReplaced = tally.replaced
  substituted : ∀ span value written, .replaced span value written ∈ pieces →
    Substituted guide.markers resolve span value written
  /-- Every cell stays in its paragraph, and in the new place of its run. -/
  view : (guide.row rebuilt).map Cell.view = edited.map fun cell =>
    (cell.char, cell.origin.paragraph, Run.newRun guide.vocabulary group edited cell.origin)
  /-- What stands in the new place of a run is this run with other text. -/
  run : ∀ cell, cell ∈ edited → ∃ paragraph run paragraph' text,
    cell.LeadsTo guide.vocabulary group paragraph run ∧
      rebuilt[cell.origin.paragraph]? = some paragraph' ∧
      paragraph'.children[Run.newRun guide.vocabulary group edited cell.origin]?
        = some (Run.rebuildRun guide.vocabulary run (run.childIndex? guide.vocabulary.text) text)
  /-- Runs keep their order, so no two of them are joined. -/
  order : ∀ first second, first ∈ edited → second ∈ edited →
    first.origin.paragraph = second.origin.paragraph →
    (Run.newRun guide.vocabulary group edited first.origin
        < Run.newRun guide.vocabulary group edited second.origin ↔
      first.origin.run < second.origin.run)

theorem source_pieces_row :
    (guide.pieces resolve group).flatMap Piece.source = guide.row group := by
  rw [pieces, source_pieces, source_scan]

theorem result_pieces_row :
    (guide.pieces resolve group).flatMap Piece.result = guide.edited resolve group := by
  rw [edited, passed, cells_pass]
  rfl

theorem outcome_passed :
    (guide.passed resolve group).outcome
      = (scan Cell.char guide.markers resolve (guide.row group)).outcome Cell.char
        guide.markers :=
  outcome_pass guide.markers resolve _

theorem countP_isReplaced_pieces_row {tally : Tally}
    (success : (guide.passed resolve group).outcome = .ok tally) :
    (guide.pieces resolve group).countP Piece.isReplaced = tally.replaced := by
  rw [outcome_passed] at success
  rw [pieces, countP_isReplaced_pieces, Scan.tally_of_outcome success]

theorem ordered_edited : Ordered (guide.edited resolve group) := by
  have ordered := ordered_pieces guide.markers resolve [] (guide.row group)
    (Run.ordered_flatten guide.vocabulary group)
  rwa [List.reverse_nil, List.nil_append, ← pieces, result_pieces_row] at ordered

theorem outcome_passed_map_char :
    (guide.passed resolve group).outcome
      = (scan id guide.markers resolve ((guide.row group).map Cell.char)).outcome id
        guide.markers :=
  outcome_pass_map_char guide.markers resolve _

theorem map_char_edited :
    (guide.edited resolve group).map Cell.char
      = (scan id guide.markers resolve ((guide.row group).map Cell.char)).units id :=
  map_char_pass guide.markers resolve _

section

variable {guide resolve group}

theorem fillGroup_of_row_eq_nil (empty : guide.row group = []) :
    guide.fillGroup group = .done (.unchanged group) := by
  rw [fillGroup]
  exact if_pos empty

theorem outcome_passed_of_row_eq_nil (empty : guide.row group = []) :
    (guide.passed resolve group).outcome = .ok ⟨0, 0⟩ := by
  rw [outcome_passed, empty, scan_nothing rfl]
  rfl

/-- A pass that fails leaves its group alone. -/
theorem run_fillGroup_of_error {error : Error}
    (failed : (guide.passed resolve group).outcome = .error error) :
    (guide.fillGroup group).run resolve = ⟨group, ⟨1, 0, 0, 0⟩, [], some error⟩ := by
  have filled : guide.row group ≠ [] := by
    intro empty
    rw [outcome_passed_of_row_eq_nil empty] at failed
    cases failed
  rw [passed] at failed
  rw [row] at failed filled
  rw [fillGroup, if_neg filled, Dialogue.run_bind, failed]
  rfl

theorem run_fillGroup_of_ok (filled : guide.row group ≠ []) {tally : Tally}
    (success : (guide.passed resolve group).outcome = .ok tally) :
    (guide.fillGroup group).run resolve =
      ⟨if tally.replaced = 0 then group
        else Run.rebuild guide.vocabulary group group.length (guide.edited resolve group),
        ⟨1, tally.replaced, tally.unresolved, 0⟩, [], none⟩ := by
  rw [passed] at success
  rw [row] at success filled
  rw [fillGroup, if_neg filled, Dialogue.run_bind, success]
  rfl

end

/-- A group in which nothing was replaced is left as it was, and any other is rebuilt. -/
theorem result_fillGroup {tally : Tally}
    (success : (guide.passed resolve group).outcome = .ok tally) :
    ((guide.fillGroup group).run resolve).result =
      if tally.replaced = 0 then group
      else Run.rebuild guide.vocabulary group group.length (guide.edited resolve group) := by
  by_cases empty : guide.row group = []
  · rw [outcome_passed_of_row_eq_nil empty] at success
    rw [fillGroup_of_row_eq_nil empty, ← Except.ok.inj success]
    rfl
  · rw [run_fillGroup_of_ok empty success]

variable {group} (paragraphs : ∀ element, element ∈ group → guide.isParagraph element = true)
include paragraphs

theorem placed_edited : Placed guide.vocabulary group (guide.edited resolve group) := by
  intro cell member
  have placed := Run.placed_flatten_of_paragraphs paragraphs
  rw [← result_pieces_row] at member
  obtain ⟨source, inRow, akin⟩ := akin_pieces guide.markers resolve (guide.row group) []
    (guide.row group) (fun other inside => ⟨other, inside.resolve_left (by simp), .refl other⟩)
    member
  obtain ⟨paragraph, run, leads⟩ := placed source inRow
  exact ⟨paragraph, run, akin.leadsTo leads⟩

theorem rebuild_edited :
    Run.rebuild guide.vocabulary group group.length (guide.edited resolve group)
      = Run.regroup guide.vocabulary group (guide.edited resolve group) :=
  Run.rebuild_length_eq_regroup guide.vocabulary group (guide.ordered_edited resolve group)
    (guide.placed_edited resolve paragraphs)

theorem keeps_edited {tally : Tally} (success : (guide.passed resolve group).outcome = .ok tally) :
    guide.Keeps resolve group tally (guide.edited resolve group)
      (Run.rebuild guide.vocabulary group group.length (guide.edited resolve group))
      (guide.pieces resolve group) := by
  have ordered := guide.ordered_edited resolve group
  have placed := guide.placed_edited resolve paragraphs
  rw [guide.rebuild_edited resolve paragraphs]
  refine ⟨guide.source_pieces_row resolve group, guide.result_pieces_row resolve group,
    guide.countP_isReplaced_pieces_row resolve group success, ?_, ?_, ?_, ?_⟩
  · intro span value written member
    exact substituted_of_mem_pieces guide.markers resolve [] (guide.row group) member
  · exact Run.map_view_flatten_regroup guide.vocabulary paragraphs ordered placed
  · intro cell member
    obtain ⟨paragraph, run, leads⟩ := placed cell member
    obtain ⟨paragraph', text, rebuilt, here⟩ :=
      Run.exists_rebuilt_run guide.vocabulary placed member leads
    exact ⟨paragraph, run, paragraph', text, leads, rebuilt, here⟩
  · intro first second firstMember _ same
    exact Run.newRun_lt_newRun_iff guide.vocabulary placed firstMember same

theorem result_fillGroup_of_ne_zero {tally : Tally}
    (success : (guide.passed resolve group).outcome = .ok tally)
    (someReplaced : tally.replaced ≠ 0) :
    ((guide.fillGroup group).run resolve).result
      = Run.regroup guide.vocabulary group (guide.edited resolve group) := by
  rw [result_fillGroup guide resolve group success, if_neg someReplaced,
    guide.rebuild_edited resolve paragraphs]

theorem map_char_row_rebuild :
    (guide.row (Run.rebuild guide.vocabulary group group.length
        (guide.edited resolve group))).map Cell.char
      = (guide.edited resolve group).map Cell.char := by
  rw [row, guide.rebuild_edited resolve paragraphs]
  exact Run.map_char_flatten_regroup guide.vocabulary paragraphs
    (guide.ordered_edited resolve group) (guide.placed_edited resolve paragraphs)

theorem map_char_row_fillGroup {tally : Tally}
    (success : (guide.passed resolve group).outcome = .ok tally) :
    (guide.row ((guide.fillGroup group).run resolve).result).map Cell.char
      = (guide.edited resolve group).map Cell.char := by
  rw [result_fillGroup guide resolve group success]
  split
  · rename_i nothing
    rw [outcome_passed] at success
    rw [← Scan.tally_of_outcome success] at nothing
    rw [← result_pieces_row, pieces, result_pieces_of_replaced_eq_zero [] nothing, source_scan]
  · exact guide.map_char_row_rebuild resolve paragraphs

/-- Filling a group of paragraphs rewrites its row and nothing else. Reading the rebuilt group gives
the row that the pass left; every cell outside the replaced placeholders stays in its paragraph and
run, and every value stands in one run of the paragraph in which its placeholder begins. Another
group with the same row of characters and runs without text is filled with the same text, however
its runs are cut. -/
theorem fillGroup_keeps {tally : Tally}
    (success : (guide.passed resolve group).outcome = .ok tally) :
    let edited := guide.edited resolve group
    let rebuilt := Run.rebuild guide.vocabulary group group.length edited
    (guide.row rebuilt).map Cell.char = edited.map Cell.char ∧
      guide.Keeps resolve group tally edited rebuilt (guide.pieces resolve group) ∧
      (guide.row ((guide.fillGroup group).run resolve).result).map Cell.char
        = edited.map Cell.char ∧
      ∀ other : List Element, (∀ element, element ∈ other → guide.isParagraph element = true) →
        (guide.row other).map Cell.char = (guide.row group).map Cell.char →
        (guide.passed resolve other).outcome = .ok tally ∧
          (guide.row ((guide.fillGroup other).run resolve).result).map Cell.char
            = edited.map Cell.char := by
  intro edited rebuilt
  refine ⟨guide.map_char_row_rebuild resolve paragraphs,
    guide.keeps_edited resolve paragraphs success,
    guide.map_char_row_fillGroup resolve paragraphs success, ?_⟩
  intro other otherParagraphs same
  have otherSuccess : (guide.passed resolve other).outcome = .ok tally := by
    rw [outcome_passed_map_char] at success ⊢
    rw [same, success]
  refine ⟨otherSuccess, ?_⟩
  rw [guide.map_char_row_fillGroup resolve otherParagraphs otherSuccess, map_char_edited, same,
    ← map_char_edited]

end

def standard : Guide := Processor.standard.guide

end Guide

def textRun (text : Text) : Element :=
  ⟨Vocabulary.standard.run, [], [], [.ofData Vocabulary.standard.text text], false⟩

def paragraphOf (children : List Element) : Element :=
  ⟨Vocabulary.standard.paragraph, [], [], children, false⟩

/-- The delimiter is in one run and the path in the next. -/
theorem fillGroup_keeps_two_runs :
    let group := [paragraphOf [textRun ['{', '{'], textRun ['a', '}', '}', '.']]]
    (∀ element, element ∈ group → Guide.standard.isParagraph element = true) ∧
      (Guide.standard.passed some group).outcome = .ok ⟨1, 0⟩ ∧
      (Guide.standard.row ((Guide.standard.fillGroup group).run some).result).map Cell.char
        = [some 'a', some '.'] := by
  intro group
  have paragraphs : ∀ element, element ∈ group → Guide.standard.isParagraph element = true := by
    decide
  have success : (Guide.standard.passed some group).outcome = .ok ⟨1, 0⟩ := by cbv
  obtain ⟨_, _, read, _⟩ := Guide.fillGroup_keeps Guide.standard some paragraphs success
  have edited : (Guide.standard.edited some group).map Cell.char = [some 'a', some '.'] := by cbv
  exact ⟨paragraphs, success, read.trans edited⟩

end MailMerge.Fill
