import MailMerge.Proofs.Fill.Record
import MailMerge.Proofs.Fill.ValuePlace
import MailMerge.Proofs.Run.Described
import MailMerge.Proofs.Run.Points

set_option autoImplicit false

namespace MailMerge.Fill

open Markup (Element)
open Run (Cell Cursor Op Row Linked Ordered points runAll writing)

def passing (opening : Nat) (before span : List Cell) : List Op :=
  List.replicate before.length .advance ++ [.seek opening, .seek (span.length - opening : Nat)]

/-- Replacing a placeholder. The path is asked for behind the opening delimiter, and for a value the
position goes back to the placeholder's beginning. -/
def replacing (opening : Nat) (before span written : List Cell) : List Op :=
  List.replicate before.length .advance ++ [.seek opening, .seek (-opening)]
    ++ .removeAhead span.length :: writing written

/-- What a pass does to its row, behind the cells `passed`, the last of which comes first. At the
end of the row the position is moved once more, which finds no cell. -/
def Scan.ops (markers : Markers) (passed : List Cell) : Scan Cell → List Op
  | finished rest => List.replicate rest.length .advance ++ [.advance]
  | unterminated before _ =>
    List.replicate before.length .advance ++ [.seek markers.opening.length]
  | unresolved before span _ next =>
    passing markers.opening.length before span
      ++ next.ops markers (span.reverse ++ (before.reverse ++ passed))
  | replaced before span _ value next =>
    let reached := before.reverse ++ passed
    let written := writtenCells reached span next.source value
    replacing markers.opening.length before span written
      ++ next.ops markers (written.reverse ++ reached)

/-- Cells in order that come from the cells of a row. -/
structure Descends (sources cells : List Cell) : Prop where
  ordered : Ordered cells
  akin : ∀ cell, cell ∈ cells → ∃ source, source ∈ sources ∧ cell.Akin source

namespace Descends

variable {sources : List Cell}

theorem sublist {cells fewer : List Cell} (descends : Descends sources cells)
    (sublist : fewer.Sublist cells) : Descends sources fewer :=
  ⟨descends.ordered.sublist sublist, fun cell member => descends.akin cell (sublist.subset member)⟩

/-- A value in a placeholder's place comes from the row that the placeholder stood in. -/
theorem written (value : Text) {passed span after : List Cell} (nonempty : span ≠ [])
    (isSome : (span.head nonempty).char.isSome)
    (descends : Descends sources (passed.reverse ++ (span ++ after))) :
    Descends sources (passed.reverse ++ writtenCells passed span after value ++ after) := by
  refine ⟨ordered_writtenCells passed value nonempty isSome descends.ordered, ?_⟩
  obtain ⟨template, place, _, _, toTemplate⟩ :=
    exists_akin_writtenCells passed after value nonempty isSome
  have inRow : template ∈ passed.reverse ++ (span ++ after) := by
    rcases place with behind | before | rfl
    · simp [List.mem_of_head? behind]
    · simp [List.mem_of_head? before]
    · simp
  obtain ⟨source, inSources, same⟩ := descends.akin template inRow
  intro cell member
  rcases List.mem_append.1 member with inFront | inAfter
  · rcases List.mem_append.1 inFront with inPassed | inWritten
    · exact descends.akin cell (by simp_all)
    · exact ⟨source, inSources, (toTemplate cell inWritten).trans same⟩
  · exact descends.akin cell (by simp [inAfter])

end Descends

/-- Operations that only move the position. -/
theorem isMove_of_mem_advances {n : Nat} {others : List Op}
    (moves : others.all Op.isMove = true) :
    ∀ op, op ∈ List.replicate n .advance ++ others → op.isMove = true := by
  intro op member
  rcases List.mem_append.1 member with advance | other
  · rw [List.eq_of_mem_replicate advance]
    rfl
  · exact List.all_eq_true.1 moves op other

section

variable {opening : Nat} (front before : List Cell) {span : List Cell} (after : List Cell)

theorem seek_into (fits : opening ≤ span.length) :
    (Row.cut front (span ++ after)).seek opening
      = Row.cut (front ++ span.take opening) (span.drop opening ++ after) := by
  have moved := Row.seek_cut front (span.take opening) (span.drop opening ++ after)
  rwa [List.length_take_of_le fits, ← List.append_assoc, List.take_append_drop] at moved

theorem runAll_passing (fits : opening ≤ span.length) :
    (runAll Row.apply (passing opening before span)
      (Row.cut front (before ++ (span ++ after)))).2 = Row.cut (front ++ before ++ span) after := by
  rw [passing, Run.runAll_append, Row.runAll_advance_cut]
  change ((Row.cut (front ++ before) (span ++ after)).seek opening).seek _ = _
  have rest := Row.seek_cut (front ++ before ++ span.take opening) (span.drop opening) after
  rw [List.length_drop, List.append_assoc _ (span.take opening), List.take_append_drop] at rest
  rw [seek_into (front ++ before) after fits, rest]

theorem runAll_seek_back (fits : opening ≤ span.length) :
    (runAll Row.apply (List.replicate before.length .advance ++ [.seek opening, .seek (-opening)])
      (Row.cut front (before ++ (span ++ after)))).2
      = Row.cut (front ++ before) (span ++ after) := by
  rw [Run.runAll_append, Row.runAll_advance_cut]
  change ((Row.cut (front ++ before) (span ++ after)).seek opening).seek _ = _
  have back := Row.seek_neg_cut (front ++ before) (span.take opening) (span.drop opening ++ after)
  rw [List.length_take_of_le fits, ← List.append_assoc (span.take opening),
    List.take_append_drop] at back
  rw [seek_into (front ++ before) after fits, back]

theorem runAll_replacing (fits : opening ≤ span.length) (written : List Cell) :
    (runAll Row.apply (replacing opening before span written)
      (Row.cut front (before ++ (span ++ after)))).2
      = Row.cut (front ++ before ++ written) after := by
  rw [replacing, Run.runAll_append, runAll_seek_back front before after fits]
  change (runAll Row.apply (writing written)
    ((Row.cut (front ++ before) (span ++ after)).removeAhead span.length)).2 = _
  rw [Row.removeAhead_cut, Row.runAll_writing_cut]

/-- While a placeholder is replaced, the row is the one in front of the replacement, or lacks at
most cells of the one behind it. -/
theorem cells_of_mem_points_replacing (fits : opening ≤ span.length) {written : List Cell}
    {point : Row} (member : point ∈ points Row.apply (replacing opening before span written)
      (Row.cut front (before ++ (span ++ after)))) :
    point.cells = front ++ (before ++ (span ++ after)) ∨
      point.cells.Sublist (front ++ before ++ written ++ after) := by
  rw [replacing, Run.mem_points_append, runAll_seek_back front before after fits] at member
  rcases member with moving | changing
  · exact Or.inl (Row.cells_of_mem_points (isMove_of_mem_advances rfl) moving)
  rcases List.mem_cons.1 changing with rfl | removed
  · exact Or.inl (List.append_assoc front before _)
  · change point ∈ points Row.apply (writing written)
      ((Row.cut (front ++ before) (span ++ after)).removeAhead span.length) at removed
    rw [Row.removeAhead_cut] at removed
    exact Or.inr (Row.sublist_of_mem_points_writing removed)

end

section

variable {markers : Markers}

/-- The operations of a pass lead to the row and the position that the pass leaves. -/
theorem runAll_ops {scanned : Scan Cell} (finds : scanned.Finds Cell.char markers)
    (passed : List Cell) :
    let left := scanned.left markers passed
    (runAll Row.apply (scanned.ops markers passed) (Row.cut passed.reverse scanned.source)).2
      = Row.cut left.passed.reverse left.ahead := by
  induction scanned generalizing passed with
  | finished rest =>
    have advanced := Row.runAll_advance_cut passed.reverse rest []
    rw [List.append_nil] at advanced
    rw [Scan.ops, Run.runAll_append, Scan.source, advanced]
    simp only [Scan.left, List.reverse_append, List.reverse_reverse]
    exact Row.seek_cut_end (passed.reverse ++ rest) 1
  | unterminated before rest =>
    obtain ⟨openingCut, _⟩ := cutBefore?_of_find_unclosed finds
    have fits := (firstAt_of_cutBefore? openingCut).begins.length_le
    have moved := seek_into (passed.reverse ++ before) [] fits
    rw [List.append_nil, List.append_nil] at moved
    simp only [Scan.left, Cursor.forward, List.reverse_append, List.reverse_reverse]
    rw [Scan.ops, Run.runAll_append, Scan.source, Row.runAll_advance_cut]
    exact moved
  | unresolved before span path next ih =>
    obtain ⟨found, finds⟩ := finds
    have fits := Nat.le_of_add_right_le (length_delimiters_le found)
    have rest := ih finds (span.reverse ++ (before.reverse ++ passed))
    simp only [List.reverse_append, List.reverse_reverse] at rest
    rw [Scan.ops, Run.runAll_append, Scan.source, runAll_passing _ _ _ fits]
    exact rest
  | replaced before span path value next ih =>
    obtain ⟨found, finds⟩ := finds
    have fits := Nat.le_of_add_right_le (length_delimiters_le found)
    have rest := ih finds ((writtenCells (before.reverse ++ passed) span next.source value).reverse
      ++ (before.reverse ++ passed))
    simp only [List.reverse_append, List.reverse_reverse] at rest
    rw [Scan.ops, Run.runAll_append, Scan.source, runAll_replacing _ _ _ fits]
    exact rest

/-- At every point of a pass the cells of the row come from those that it began with. -/
theorem descends_of_mem_points {scanned : Scan Cell} (finds : scanned.Finds Cell.char markers)
    {sources : List Cell} (passed : List Cell)
    (descends : Descends sources (passed.reverse ++ scanned.source)) {point : Row}
    (member : point ∈ points Row.apply (scanned.ops markers passed)
      (Row.cut passed.reverse scanned.source)) :
    Descends sources point.cells := by
  -- Moving leaves the cells alone; a replacement passes from the row in front of it to the one
  -- behind it, by rows that lack cells of the latter.
  induction scanned generalizing passed with
  | finished rest =>
    rwa [Row.cells_of_mem_points (isMove_of_mem_advances rfl) member]
  | unterminated before rest =>
    rwa [Row.cells_of_mem_points (isMove_of_mem_advances rfl) member]
  | unresolved before span path next ih =>
    obtain ⟨found, finds⟩ := finds
    have fits := Nat.le_of_add_right_le (length_delimiters_le found)
    rw [Scan.ops, Run.mem_points_append, Scan.source, runAll_passing _ _ _ fits] at member
    rcases member with here | later
    · rwa [Row.cells_of_mem_points (isMove_of_mem_advances rfl) here]
    · refine ih finds (span.reverse ++ (before.reverse ++ passed)) ?_ ?_
      · simpa [Scan.source] using descends
      · simpa using later
  | replaced before span path value next ih =>
    obtain ⟨found, finds⟩ := finds
    have fits := Nat.le_of_add_right_le (length_delimiters_le found)
    have whole :
        Descends sources ((before.reverse ++ passed).reverse ++ (span ++ next.source)) := by
      simpa [Scan.source] using descends
    have written := whole.written value (span_ne_nil found) (isSome_char_head_span found)
    rw [Scan.ops, Run.mem_points_append, Scan.source, runAll_replacing _ _ _ fits] at member
    rcases member with here | later
    · rcases cells_of_mem_points_replacing _ _ _ fits here with same | fewer
      · rwa [same]
      · exact written.sublist (by simpa using fewer)
    · refine ih finds ((writtenCells (before.reverse ++ passed) span next.source value).reverse
        ++ (before.reverse ++ passed)) ?_ ?_
      · simpa using written
      · simpa using later

section

variable {scanned : Scan Cell} {row : List Cell} (whole : scanned.source = row)
  (finds : scanned.Finds Cell.char markers)
include whole finds

theorem runAll_rewind_ops :
    let left := scanned.left markers []
    (runAll Row.apply (.rewind :: scanned.ops markers []) (Row.ofCells row)).2
      = Row.cut left.passed.reverse left.ahead := by
  subst whole
  exact runAll_ops finds []

theorem descends_of_mem_points_rewind (ordered : Ordered row) {point : Row}
    (member : point ∈ points Row.apply (.rewind :: scanned.ops markers []) (Row.ofCells row)) :
    Descends row point.cells := by
  subst whole
  have first : Descends scanned.source scanned.source :=
    ⟨ordered, fun cell inRow => ⟨cell, inRow, .refl cell⟩⟩
  rcases List.mem_cons.1 member with rfl | later
  · exact first
  · exact descends_of_mem_points finds [] first later

end

end

/-- Whatever answers it, a pass over the cells of any elements is a run of operations on linked
slots, and at each point of it, also of a pass that fails, the cells are in place. From there every
index of an origin finds its paragraph and its run, and rebuilding adds no text element. -/
theorem pass_inPlace {σ : Type} (vocabulary : Vocabulary) (markers : Markers)
    (source : List Element) (resolve : σ → Text → Option Text × σ) (state : σ) :
    let loaded := Run.flatten vocabulary source
    let group := Run.leadingParagraphs vocabulary source
    let work := pass markers (Cursor.ofCells loaded)
    let passed := (work.runWith resolve state).1
    ∃ scanned : Scan Cell, scanned.source = loaded ∧ scanned.Finds Cell.char markers ∧
      scanned.record = work.record resolve state ∧
      let ops := .rewind :: scanned.ops markers []
      let final := (runAll Linked.apply ops (Linked.ofCells loaded)).2
      final.cells = passed.cursor.cells ∧ final.offset = passed.cursor.offset ∧
      ∀ point, point ∈ points Linked.apply ops (Linked.ofCells loaded) →
        Run.InPlace vocabulary source point.cells ∧
        Run.rebuild vocabulary source group.length point.cells
          = Run.described vocabulary group point.cells ∧
        (∀ cell, cell ∈ point.cells → ∃ paragraph run,
          group[cell.origin.paragraph]? = some paragraph ∧
            paragraph.children[cell.origin.run]? = some run) ∧
        ∀ number index paragraph run, group[number]? = some paragraph →
          paragraph.children[index]? = some run →
          Run.newText vocabulary run
            (Run.textOf (Run.inRun index (Run.inParagraph number point.cells))) = [] := by
  intro loaded group work passed
  obtain ⟨scanned, whole, finds, record, left⟩ :=
    exists_scanOf_pass markers resolve state (Cursor.ofCells loaded)
  refine ⟨scanned, whole, finds, record, ?_⟩
  intro ops final
  obtain ⟨_, _, start⟩ := Linked.shows_ofCells loaded
  obtain ⟨_, _, _, ended⟩ := start.runAll ops
  have reached := runAll_rewind_ops whole finds
  rw [left] at reached
  refine ⟨?_, ?_, ?_⟩
  · exact ended.agrees.cells.trans (congrArg Row.cells reached)
  · exact ended.agrees.offset.trans ((congrArg Row.position reached).trans List.length_reverse)
  · intro point member
    obtain ⟨row, inside, _, _, shown⟩ := start.exists_point member
    have descends := descends_of_mem_points_rewind whole finds
      (Run.ordered_flatten vocabulary source) inside
    have inPlace : Run.InPlace vocabulary source point.cells := by
      rw [shown.agrees.cells]
      exact Run.inPlace_of_akin descends.ordered descends.akin
    refine ⟨inPlace, inPlace.loaded.rebuild_eq_described inPlace.sorted, ?_, ?_⟩
    · intro cell own
      obtain ⟨paragraph, run, paragraphAt, runAt, _, _⟩ := inPlace.loaded.exists_run own
      exact ⟨paragraph, run, paragraphAt, runAt⟩
    · intro number index paragraph run paragraphAt runAt
      exact inPlace.newText_eq_nil paragraphAt runAt

/-- A placeholder over a bookmark is replaced, and the next one is never closed. -/
theorem failed_pass_inPlace :
    let source := [paragraphOf [textRun ['{', '{', 'a'], bookmarkEnd, textRun ['}', '}', '.']],
      paragraphOf [textRun [], textRun ['{', '{', 'b']]]
    let work :=
      pass Guide.standard.markers (Cursor.ofCells (Run.flatten Vocabulary.standard source))
    let answer (answers : List Text) (_ : Text) := (answers.head?, answers.drop 1)
    let passed := (work.runWith answer [['v']]).1
    passed.outcome = .error (.unterminatedPlaceholder 4 ['{', '{', 'b']) ∧
      Run.textOf passed.cursor.cells = ['v', '.', '{', '{', 'b'] ∧
      Run.InPlace Vocabulary.standard source passed.cursor.cells := by
  refine ⟨by cbv, by cbv, ?_⟩
  obtain ⟨_, _, _, _, cells, _, inPlace⟩ := pass_inPlace Vocabulary.standard Guide.standard.markers
    [paragraphOf [textRun ['{', '{', 'a'], bookmarkEnd, textRun ['}', '}', '.']],
      paragraphOf [textRun [], textRun ['{', '{', 'b']]]
    (fun (answers : List Text) _ => (answers.head?, answers.drop 1)) [['v']]
  rw [← cells]
  exact (inPlace _ (Run.runAll_mem_points _ _ _)).1

end MailMerge.Fill
