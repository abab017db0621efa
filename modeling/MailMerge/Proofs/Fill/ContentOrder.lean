import MailMerge.Proofs.Fill.Group
import MailMerge.Proofs.Fill.RunContent
import MailMerge.Proofs.Run.ContentOrder

set_option autoImplicit false

namespace MailMerge.Fill

open Markup (Element)
open Run (Cell IsContent)

/-- The element at the end of a path of indices into a list of elements. -/
def elementAt? : List Nat → List Element → Option Element
  | [], _ => none
  | index :: path, elements => (elements[index]?).bind (descendant? path)

/-- In a rebuilt group, a path into a run with a cell leads into this run with its new text. -/
theorem elementAt?_newPath {vocabulary : Vocabulary} {group : List Element} {cells : List Cell}
    {cell : Cell} {paragraph run : Element} (placed : Run.Placed vocabulary group cells)
    (member : cell ∈ cells) (leads : cell.LeadsTo vocabulary group paragraph run) (place : Nat) :
    elementAt? (Run.newPath vocabulary group cells
        [cell.origin.paragraph, cell.origin.run, place]) (Run.regroup vocabulary group cells)
      = (run.children[place]?).map fun child =>
        if some place = run.childIndex? vocabulary.text then
          { child.shell with data := Run.runTextIn cell.origin cells } else child := by
  obtain ⟨rebuilt, rebuiltAt, runAt, fits⟩ := Run.exists_run_at_newRun placed member leads
  rw [← Run.getElem?_children_rebuildRun fits]
  rw [Run.newRun] at runAt
  simp only [elementAt?, Run.newPath, descendant?, rebuiltAt, runAt, Option.bind_some,
    Option.bind_fun_some]

/-- If `first` and `last` are on one side of `here`, the place is on this side too. -/
def KeepsSide (here first last place : List Nat) : Prop :=
  (here < first → here < place) ∧ (last < here → place < here)

namespace KeepsSide

variable {here first last place : List Nat}

theorem of_within (lower : first ≤ place) (upper : place ≤ last) :
    KeepsSide here first last place :=
  ⟨fun before => lt_of_lt_of_le before lower, fun behind => lt_of_le_of_lt upper behind⟩

theorem of_behind (lower : first ≤ place) (other : here ≠ place)
    (free : ¬ (last < here ∧ here < place)) : KeepsSide here first last place := by
  refine ⟨fun before => lt_of_lt_of_le before lower, fun behind => ?_⟩
  by_contra notBehind
  exact free ⟨behind, lt_of_le_of_ne (not_lt.1 notBehind) other⟩

theorem of_before (upper : place ≤ last) (other : here ≠ place)
    (free : ¬ (place < here ∧ here < first)) : KeepsSide here first last place := by
  refine ⟨fun before => ?_, fun behind => lt_of_le_of_lt upper behind⟩
  by_contra notBefore
  exact free ⟨lt_of_le_of_ne (not_lt.1 notBefore) other.symm, before⟩

end KeepsSide

section

variable {markers : Markers} {resolve : Text → Option Text} {units : List Cell}
  {front back : List Piece} {span written : List Cell} {value : Text}
  (split : (scan Cell.char markers resolve units).pieces []
    = front ++ .replaced span value written :: back)
include split

theorem units_eq_of_split :
    units = front.flatMap Piece.source ++ (span ++ back.flatMap Piece.source) := by
  have sources := congrArg (List.flatMap Piece.source) split
  rwa [source_pieces, source_scan, List.flatMap_append, List.flatMap_cons] at sources

/-- The cells of a value have the origin of the template and stand at neither end of a run. -/
theorem mem_written_of_split {receiver : Cell} (receives : receiver ∈ written) :
    (∃ template, templateOf? (front.flatMap Piece.result).reverse span (back.flatMap Piece.source)
        = some template ∧ receiver.origin = template.origin) ∧
      receiver.char.isSome ∧ receiver.opensRun = false ∧ receiver.closesRun = false := by
  have writtenEq := written_eq_writtenCells split
  rw [List.append_nil, writtenCells] at writtenEq
  cases chosen : templateOf? (front.flatMap Piece.result).reverse span
      (back.flatMap Piece.source) with
  | none => simp [writtenEq, chosen] at receives
  | some template =>
    rw [writtenEq, chosen, Option.map_some, Option.getD_some, valueCells] at receives
    obtain ⟨c, _, rfl⟩ := List.mem_map.1 receives
    exact ⟨⟨template, rfl, rfl⟩, rfl, rfl, rfl⟩

/-- A cell at an end of its run was there before the pass. -/
theorem mem_source_of_closesRun {cell : Cell} (member : cell ∈ front.flatMap Piece.result)
    (closes : cell.closesRun = true) : cell ∈ front.flatMap Piece.source := by
  obtain ⟨piece, isPiece, inPiece⟩ := List.mem_flatMap.1 member
  cases piece with
  | kept cells => exact List.mem_flatMap.2 ⟨_, isPiece, inPiece⟩
  | replaced earlier other cells =>
    obtain ⟨left, right, rfl⟩ := List.append_of_mem isPiece
    rw [List.append_assoc, List.cons_append] at split
    obtain ⟨_, _, _, inside⟩ := mem_written_of_split split inPiece
    rw [inside] at closes
    cases closes

/-- A cell behind a value comes from a cell behind the placeholder, or from the run that the value
is written into or that ends right in front of it. -/
theorem akin_behind {cell : Cell} (member : cell ∈ back.flatMap Piece.result) :
    ∃ source, (source ∈ back.flatMap Piece.source ∨ source ∈ written ∨
      (front.flatMap Piece.result).getLast? = some source) ∧ cell.Akin source := by
  rw [pieces_behind markers resolve split] at member
  have others := akin_pieces markers resolve
    (back.flatMap Piece.source ++ (written ++ (front.flatMap Piece.result).getLast?.toList)) _ _ ?_
    member
  · obtain ⟨source, inside, akin⟩ := others
    refine ⟨source, ?_, akin⟩
    rwa [List.mem_append, List.mem_append, Option.mem_toList] at inside
  · rintro other (last | behind)
    · refine ⟨other, List.mem_append_right _ ?_, .refl other⟩
      rcases mem_or_of_head?_append last with inWritten | inFront
      · exact List.mem_append_left _ inWritten
      · rw [List.append_nil, List.head?_reverse] at inFront
        exact List.mem_append_right _ (Option.mem_toList.2 inFront)
    · exact ⟨other, List.mem_append_left _ behind, .refl other⟩

end

namespace Guide

section

variable {guide : Guide} {resolve : Text → Option Text} {group : List Element}
  {front back : List Piece} {span written : List Cell} {value : Text}
  (split : guide.pieces resolve group = front ++ .replaced span value written :: back)
include split

theorem row_eq_of_split :
    guide.row group = front.flatMap Piece.source ++ (span ++ back.flatMap Piece.source) :=
  units_eq_of_split split

theorem edited_eq_of_split :
    guide.edited resolve group
      = front.flatMap Piece.result ++ (written ++ back.flatMap Piece.result) := by
  rw [← result_pieces_row, split, List.flatMap_append, List.flatMap_cons]
  rfl

/-- A cell that the pass leaves does not come from a run between the placeholder and the cell in
front of it, if the value goes into that cell's run. -/
theorem not_between_of_edited {first before own : Cell} (begins : span.head? = some first)
    (last : (front.flatMap Piece.result).getLast? = some before)
    (receives : ∀ receiver, receiver ∈ written → receiver.origin = before.origin)
    (left : own ∈ guide.edited resolve group) : own.NotBehind before ∨ first.NotBehind own := by
  have ordered := guide.ordered_edited resolve group
  have row := Run.ordered_flatten guide.vocabulary group
  rw [edited_eq_of_split split] at ordered left
  rw [show Run.flatten guide.vocabulary group = _ from row_eq_of_split split] at row
  have spanOrdered := (List.pairwise_append.1 row).2.1
  rcases List.mem_append.1 left with inFront | inRest
  · have inFrontOrdered := (List.pairwise_append.1 ordered).1
    exact Or.inl (Run.Ordered.notBehind_getLast inFrontOrdered inFront last)
  rcases List.mem_append.1 inRest with inWritten | behind
  · exact Or.inl (.of_origin_eq (receives own inWritten))
  obtain ⟨source, place, akin⟩ := akin_behind split behind
  rcases place with inBack | inWritten | isLast
  · right
    have later := Run.Ordered.notBehind spanOrdered (List.mem_of_head? begins) inBack
    exact later.trans (.of_origin_eq akin.origin.symm)
  · exact Or.inl (.of_origin_eq (akin.origin.trans (receives source inWritten)))
  · rw [last, Option.some.injEq] at isLast
    exact Or.inl (.of_origin_eq (isLast ▸ akin.origin))

theorem mem_row_of_mem_span {cell : Cell} (member : cell ∈ span) : cell ∈ guide.row group := by
  rw [row_eq_of_split split]
  simp [member]

theorem mem_edited_of_mem_written {receiver : Cell} (receives : receiver ∈ written) :
    receiver ∈ guide.edited resolve group := by
  rw [edited_eq_of_split split]
  simp [receives]

theorem mem_pieces_of_split : .replaced span value written ∈ guide.pieces resolve group := by
  rw [split]
  simp

/-- A group with a placeholder that got a value is rebuilt. -/
theorem result_fillGroup_of_split
    (paragraphs : ∀ element, element ∈ group → guide.isParagraph element = true) {tally : Tally}
    (success : (guide.passed resolve group).outcome = .ok tally) :
    ((guide.fillGroup group).run resolve).result
      = Run.regroup guide.vocabulary group (guide.edited resolve group) := by
  apply guide.result_fillGroup_of_ne_zero resolve paragraphs success
  rw [← guide.countP_isReplaced_pieces_row resolve group success]
  exact Nat.ne_of_gt (List.countP_pos_iff.2 ⟨_, mem_pieces_of_split split, rfl⟩)

/-- In the run of a value, its text stands between what is left in front of it and behind it. -/
theorem runTextIn_edited {receiver : Cell} (receives : receiver ∈ written) :
    Run.runTextIn receiver.origin (guide.edited resolve group)
      = Run.runTextIn receiver.origin (front.flatMap Piece.result) ++ Markup.escape value
        ++ Run.runTextIn receiver.origin (back.flatMap Piece.result) := by
  have isPiece := mem_pieces_of_split split
  have substituted := substituted_of_mem_pieces guide.markers resolve [] (guide.row group) isPiece
  obtain ⟨_, template, _, _, _, akin⟩ := substituted.origin
  have one : ∀ other, other ∈ written → other.origin = receiver.origin := fun other inWritten =>
    (akin other inWritten).origin.trans (akin receiver receives).origin.symm
  have whole : Run.inRun receiver.origin.run (Run.inParagraph receiver.origin.paragraph written)
      = written := by
    rw [Run.inRun, Run.inParagraph, List.filter_filter, List.filter_eq_self]
    intro other inWritten
    simp [one other inWritten]
  have text : Run.runTextIn receiver.origin written = Markup.escape value := by
    rw [Run.runTextIn, whole]
    exact textOf_of_map_char substituted.chars
  rw [edited_eq_of_split split, Run.runTextIn_append, Run.runTextIn_append, text, List.append_assoc]

variable {first last : Cell} (begins : span.head? = some first) (ends : span.getLast? = some last)
  (paragraphs : ∀ element, element ∈ group → guide.isParagraph element = true)
include begins ends paragraphs

/-- In a row, everything behind a placeholder is behind its first cell, and everything in front of
it is in front of its last one. -/
theorem span_path_le :
    first.path ≤ last.path ∧
      (∀ cell, cell ∈ back.flatMap Piece.source → first.path ≤ cell.path) ∧
      ∀ cell, cell ∈ front.flatMap Piece.source → cell.path ≤ last.path := by
  have cells := row_eq_of_split split
  have ordered := Run.ordered_flatten guide.vocabulary group
  have placed : Run.Placed guide.vocabulary group (guide.row group) :=
    Run.placed_flatten_of_paragraphs paragraphs
  have firstMember := mem_row_of_mem_span split (List.mem_of_head? begins)
  have lastMember := mem_row_of_mem_span split (List.mem_of_getLast? ends)
  rw [show Run.flatten guide.vocabulary group = _ from cells] at ordered
  obtain ⟨_, spanOrdered, _⟩ := List.pairwise_append.1 ordered
  refine ⟨?_, ?_, ?_⟩
  · apply placed.path_le firstMember lastMember
    exact Run.Ordered.notBehind_getLast (List.pairwise_append.1 spanOrdered).1
      (List.mem_of_head? begins) ends
  · intro cell member
    apply placed.path_le firstMember (by rw [cells]; simp [member])
    exact Run.Ordered.notBehind spanOrdered (List.mem_of_head? begins) member
  · intro cell member
    apply placed.path_le (by rw [cells]; simp [member]) lastMember
    exact Run.Ordered.notBehind ordered member
      (List.mem_append_left _ (List.mem_of_getLast? ends))

variable {number index place : Nat} {run child : Element}
  (content : IsContent guide.vocabulary group number index place run child)
  {receiver : Cell} (receives : receiver ∈ written)
include content receives

/-- No content stands between a placeholder and the cell behind it where the two touch. -/
theorem keepsSide_of_behind {template : Cell}
    (behind : (back.flatMap Piece.source).head? = some template)
    (touches : touchesBehind last template = true) (origin : receiver.origin = template.origin) :
    KeepsSide [number, index, place] first.path last.path receiver.path := by
  obtain ⟨within, later, _⟩ := span_path_le split begins ends paragraphs
  have path : receiver.path = template.path := by rw [Cell.path, Cell.path, origin]
  have other : [number, index, place] ≠ receiver.path :=
    content.ne_path (guide.placed_edited resolve paragraphs)
      (mem_edited_of_mem_written split receives)
  have inBack := List.mem_of_head? behind
  rw [touchesBehind, Bool.or_eq_true, beq_iff_eq, Bool.and_eq_true] at touches
  rcases touches with same | ⟨opens, closes⟩
  · have ends : receiver.path = last.path := by rw [path, Cell.path, Cell.path, same]
    exact .of_within (within.trans_eq ends.symm) ends.le
  · apply KeepsSide.of_behind (path ▸ later template inBack) other
    rw [path]
    have cells := row_eq_of_split split
    have templateMember : template ∈ guide.row group := by
      rw [cells]
      simp [inBack]
    have lastMember := mem_row_of_mem_span split (List.mem_of_getLast? ends)
    -- The two are next to each other in the row, in which every run has a cell.
    obtain ⟨own, ownMember, here⟩ := content.exists_cell paragraphs
    apply content.not_between paragraphs lastMember templateMember closes opens here
    have ordered := Run.ordered_flatten guide.vocabulary group
    rw [show Run.flatten guide.vocabulary group = _ from cells, ← List.append_assoc]
      at ordered ownMember
    obtain ⟨inFront, inRest, _⟩ := List.pairwise_append.1 ordered
    rcases List.mem_append.1 ownMember with early | late
    · left
      apply Run.Ordered.notBehind_getLast inFront early
      rw [List.getLast?_append, ends, Option.some_or]
    · exact Or.inr (Run.Ordered.notBehind_of_head inRest behind late)

/-- No content that is left stands between a placeholder and the cell in front of it where the two
touch, though runs may have gone from there. -/
theorem keepsSide_of_before (survives : guide.LeavesCell resolve group number index)
    {template : Cell} (before : (front.flatMap Piece.result).getLast? = some template)
    (touches : touchesBefore first template = true)
    (origins : ∀ other, other ∈ written → other.origin = template.origin) :
    KeepsSide [number, index, place] first.path last.path receiver.path := by
  obtain ⟨within, _, earlier⟩ := span_path_le split begins ends paragraphs
  have path : receiver.path = template.path := by
    rw [Cell.path, Cell.path, origins receiver receives]
  have other : [number, index, place] ≠ receiver.path :=
    content.ne_path (guide.placed_edited resolve paragraphs)
      (mem_edited_of_mem_written split receives)
  rw [touchesBefore, Bool.or_eq_true, beq_iff_eq, Bool.and_eq_true] at touches
  rcases touches with same | ⟨closes, opens⟩
  · have begins : receiver.path = first.path := by rw [path, Cell.path, Cell.path, same]
    exact .of_within begins.ge (begins.trans_le within)
  · have inFront := mem_source_of_closesRun split (List.mem_of_getLast? before) closes
    apply KeepsSide.of_before (path ▸ earlier template inFront) other
    rw [path]
    have templateMember : template ∈ guide.row group := by
      rw [row_eq_of_split split]
      exact List.mem_append_left _ inFront
    have firstMember := mem_row_of_mem_span split (List.mem_of_head? begins)
    -- The cell in front was not next to the placeholder at first, but all in between is gone.
    rw [leavesCell_iff] at survives
    obtain ⟨own, member⟩ := List.exists_mem_of_ne_nil _ survives
    obtain ⟨left, here⟩ := Run.mem_inRun_inParagraph.1 member
    exact content.not_between paragraphs templateMember firstMember closes opens here
      (not_between_of_edited split begins before origins left)

/-- A value is written on the side of its placeholder of everything that is left. -/
theorem keepsSide_written (survives : guide.LeavesCell resolve group number index) :
    KeepsSide [number, index, place] first.path last.path receiver.path := by
  have nonempty : span ≠ [] := by
    rintro rfl
    cases begins
  have firstCell : span.head nonempty = first := by
    rw [List.head?_eq_some_head nonempty, Option.some.injEq] at begins
    exact begins
  have lastCell : span.getLast nonempty = last := by
    rw [List.getLast?_eq_some_getLast nonempty, Option.some.injEq] at ends
    exact ends
  obtain ⟨⟨template, chosen, origin⟩, _⟩ := mem_written_of_split split receives
  have origins : ∀ other, other ∈ written → other.origin = template.origin := by
    intro other inWritten
    obtain ⟨⟨template', chosen', origin'⟩, _⟩ := mem_written_of_split split inWritten
    rw [chosen, Option.some.injEq] at chosen'
    rw [origin', chosen']
  have cases := templateOf?_cases nonempty chosen
  rw [firstCell, lastCell, List.head?_reverse] at cases
  rcases cases with ⟨behind, _, touches⟩ | ⟨before, _, touches⟩ | own
  · exact keepsSide_of_behind split begins ends paragraphs content receives behind touches origin
  · exact keepsSide_of_before split begins ends paragraphs content receives survives before
      touches origins
  · obtain ⟨within, _⟩ := span_path_le split begins ends paragraphs
    have path : receiver.path = first.path := by rw [Cell.path, Cell.path, origin, own]
    exact .of_within path.ge (path.trans_le within)

end

/-- Nothing that is left in the runs of a group changes sides with a value. A child of a run that
keeps a cell is found at its new path, and every value in one text element at its own; a child in
front of the placeholder is in front of this element, and a child behind the placeholder is behind
it. -/
theorem value_between_content (guide : Guide) (resolve : Text → Option Text) {group : List Element}
    (paragraphs : ∀ element, element ∈ group → guide.isParagraph element = true) {tally : Tally}
    (success : (guide.passed resolve group).outcome = .ok tally)
    {front back : List Piece} {span written : List Cell} {value : Text}
    (split : guide.pieces resolve group = front ++ .replaced span value written :: back)
    {first last : Cell} (begins : span.head? = some first) (ends : span.getLast? = some last)
    {number index place : Nat} {run child : Element}
    (content : IsContent guide.vocabulary group number index place run child)
    (survives : guide.LeavesCell resolve group number index) :
    let filled := ((guide.fillGroup group).run resolve).result
    let move := Run.newPath guide.vocabulary group (guide.edited resolve group)
    elementAt? (move [number, index, place]) filled = some child ∧
      ∀ receiver, receiver ∈ written →
        (∃ element, elementAt? (move receiver.path) filled = some element ∧
          element.data = Run.runTextIn receiver.origin (front.flatMap Piece.result)
            ++ Markup.escape value ++ Run.runTextIn receiver.origin (back.flatMap Piece.result)) ∧
        ([number, index, place] < first.path →
          move [number, index, place] < move receiver.path) ∧
        (last.path < [number, index, place] →
          move receiver.path < move [number, index, place]) := by
  intro filled move
  have placed := guide.placed_edited resolve paragraphs
  have regrouped : filled = Run.regroup guide.vocabulary group (guide.edited resolve group) :=
    result_fillGroup_of_split split paragraphs success
  obtain ⟨own, ownMember⟩ :=
    List.exists_mem_of_ne_nil _ ((guide.leavesCell_iff resolve group number index).1 survives)
  obtain ⟨left, rfl, rfl⟩ := Run.mem_inRun_inParagraph.1 ownMember
  rw [regrouped]
  constructor
  · obtain ⟨_, leads⟩ := content.leadsTo placed left ⟨rfl, rfl⟩
    rw [elementAt?_newPath placed left leads, content.child_at, Option.map_some,
      if_neg content.notText.symm]
  intro receiver receives
  have inEdited := mem_edited_of_mem_written split receives
  have keeps := keepsSide_written split begins ends paragraphs content receives survives
  obtain ⟨_, receiverRun, leads⟩ := placed receiver inEdited
  obtain ⟨_, isSome, _⟩ := mem_written_of_split split receives
  obtain ⟨textPlace, textAt, path⟩ := leads.exists_text isSome
  refine ⟨?_, fun before => ?_, fun behind => ?_⟩
  · obtain ⟨inside, _⟩ := List.findIdx?_eq_some_iff_getElem.1 textAt
    have written := runTextIn_edited split receives
    rw [path, elementAt?_newPath placed inEdited leads, List.getElem?_eq_getElem inside,
      Option.map_some, if_pos textAt.symm]
    exact ⟨_, rfl, written⟩
  · have moved := keeps.1 before
    rw [path] at moved ⊢
    exact Run.newPath_lt_newPath placed left moved
  · have moved := keeps.2 behind
    rw [path] at moved ⊢
    exact Run.newPath_lt_newPath placed inEdited moved

end Guide

/-- A placeholder that begins behind a tab and reaches over three runs, two of which go. The value
stays between this tab and the one of the next run. -/
theorem value_between_two_tabs :
    let group := [paragraphOf [tabRun ['x', '{', '{'], textRun ['a'], textRun ['}', '}'],
      tabRun ['y']]]
    let resolve := fun _ : Text => some ['A']
    let move := Run.newPath Vocabulary.standard group (Guide.standard.edited resolve group)
    let receiver := Cell.ofChar (some 'A') ⟨0, 0, some 1⟩
    ((Guide.standard.fillGroup group).run resolve).result
        = [paragraphOf [tabRun ['x', 'A'], tabRun ['y']]] ∧
      move [0, 0, 0] < move receiver.path ∧ move receiver.path < move [0, 3, 0] := by
  intro group resolve move receiver
  let row := Guide.standard.row group
  have paragraphs : ∀ element, element ∈ group → Guide.standard.isParagraph element = true := by
    decide
  have success : (Guide.standard.passed resolve group).outcome = .ok ⟨1, 0⟩ := by cbv
  have split : Guide.standard.pieces resolve group
      = [.kept (row.take 1)] ++ .replaced ((row.drop 1).take 5) ['A'] [receiver]
        :: [.kept (row.drop 6)] := by cbv
  have begins : ((row.drop 1).take 5).head? = some ⟨some '{', ⟨0, 0, some 1⟩, false, false⟩ := by
    decide
  have ends : ((row.drop 1).take 5).getLast? = some ⟨some '}', ⟨0, 2, some 0⟩, false, true⟩ := by
    decide
  have leaves : ∀ cells cell, .kept cells ∈ Guide.standard.pieces resolve group → cell ∈ cells →
      Guide.standard.LeavesCell resolve group cell.origin.paragraph cell.origin.run :=
    fun cells cell kept member => Or.inl ⟨cells, cell, kept, member, rfl, rfl⟩
  have inFront : IsContent Vocabulary.standard group 0 0 0 (tabRun ['x', '{', '{']) tab :=
    ⟨⟨_, rfl, rfl⟩, by decide, rfl, by decide, by decide⟩
  have behind : IsContent Vocabulary.standard group 0 3 0 (tabRun ['y']) tab :=
    ⟨⟨_, rfl, rfl⟩, by decide, rfl, by decide, by decide⟩
  obtain ⟨_, first⟩ := Guide.value_between_content Guide.standard resolve paragraphs success split
    begins ends inFront (leaves (row.take 1) ⟨some 'x', ⟨0, 0, some 1⟩, false, false⟩
      (by simp [split]) (by decide))
  obtain ⟨_, second⟩ := Guide.value_between_content Guide.standard resolve paragraphs success split
    begins ends behind (leaves (row.drop 6) ⟨some 'y', ⟨0, 3, some 1⟩, false, true⟩
      (by simp [split]) (by decide))
  obtain ⟨_, before, _⟩ := first receiver (List.mem_singleton_self receiver)
  obtain ⟨_, _, after⟩ := second receiver (List.mem_singleton_self receiver)
  exact ⟨by cbv, before (by decide), after (by decide)⟩

end MailMerge.Fill
