import MailMerge.Proofs.Fill.Filled

set_option autoImplicit false

namespace MailMerge.Fill

open Markup (Element)
open Run (Cell)

/-- A child stands between the runs of a placeholder and another run. -/
def StandsBetween (span : List Cell) (run index : Nat) : Prop :=
  (∀ cell, cell ∈ span → cell.origin.run < index) ∧ index < run ∨
    (∀ cell, cell ∈ span → index < cell.origin.run) ∧ run < index

/-- A run at the new index `place` is on the same side of a child, now at `fixed`, as the runs of a
placeholder were. -/
def SameSide (span : List Cell) (index place fixed : Nat) : Prop :=
  ((∀ cell, cell ∈ span → cell.origin.run < index) → place < fixed) ∧
    ((∀ cell, cell ∈ span → index < cell.origin.run) → fixed < place)

theorem sameSide_iff_not_standsBetween {span : List Cell} {run index place fixed : Nat}
    (other : run ≠ index) (before : place < fixed ↔ run < index)
    (behind : fixed < place ↔ index < run) :
    SameSide span index place fixed ↔ ¬ StandsBetween span run index := by
  unfold SameSide StandsBetween
  rw [before, behind]
  constructor
  · rintro ⟨left, right⟩ (⟨earlier, jumps⟩ | ⟨later, jumps⟩)
    · have := left earlier
      omega
    · have := right later
      omega
  · intro between
    constructor
    · intro earlier
      by_contra jumps
      exact between (Or.inl ⟨earlier, by omega⟩)
    · intro later
      by_contra jumps
      exact between (Or.inr ⟨later, by omega⟩)

namespace Guide

section

variable (guide : Guide) (resolve : Text → Option Text) {group : List Element}

/-- The run of a value is that of the placeholder's template. It stands on the placeholder's side of
a child that is not a run exactly when this child does not stand between the two. -/
theorem value_sameSide_iff
    (paragraphs : ∀ element, element ∈ group → guide.isParagraph element = true) {tally : Tally}
    (success : (guide.passed resolve group).outcome = .ok tally)
    {front back : List Piece} {span written : List Cell} {value : Text}
    (split : guide.pieces resolve group = front ++ .replaced span value written :: back)
    {number : Nat} (inside : ∀ cell, cell ∈ span → cell.origin.paragraph = number)
    {receiver : Cell} (receives : receiver ∈ written) {paragraph child : Element} {index : Nat}
    (paragraphAt : group[number]? = some paragraph)
    (childAt : paragraph.children[index]? = some child)
    (other : child.isNamed guide.vocabulary.run = false) :
    let filled := ((guide.fillGroup group).run resolve).result
    let edited := guide.edited resolve group
    let place := Run.newRun guide.vocabulary group edited receiver.origin
    let fixed := Run.newIndex (Run.survivorsOf guide.vocabulary group edited number) index
    (∃ template, templateOf? (front.flatMap Piece.result).reverse span
          (back.flatMap Piece.source) = some template ∧ receiver.origin = template.origin) ∧
      (∃ rebuilt run text, filled[number]? = some rebuilt ∧
        paragraph.children[receiver.origin.run]? = some run ∧
        rebuilt.children[place]? = some (Run.rebuildRun guide.vocabulary run
          (run.childIndex? guide.vocabulary.text) text) ∧
        rebuilt.children[fixed]? = some child) ∧
      (SameSide span index place fixed ↔ ¬ StandsBetween span receiver.origin.run index) := by
  intro filled edited place fixed
  have isPiece : .replaced span value written ∈ guide.pieces resolve group := by
    rw [split]
    simp
  have placed := guide.placed_edited resolve paragraphs
  -- A replaced placeholder was counted, so the group was rebuilt.
  have counted : tally.replaced ≠ 0 := by
    rw [← guide.countP_isReplaced_pieces_row resolve group success]
    exact Nat.ne_of_gt (List.countP_pos_iff.2 ⟨_, isPiece, rfl⟩)
  have regrouped : filled = Run.regroup guide.vocabulary group edited :=
    guide.result_fillGroup_of_ne_zero resolve paragraphs success counted
  have inEdited : receiver ∈ edited := by
    show receiver ∈ guide.edited resolve group
    rw [← result_pieces_row]
    exact List.mem_flatMap.2 ⟨_, isPiece, receives⟩
  have substituted := substituted_of_mem_pieces guide.markers resolve [] (guide.row group) isPiece
  obtain ⟨first, source, firstCell, sameParagraph, _, akin⟩ := substituted.origin
  have here : receiver.origin.paragraph = number := by
    rw [(akin receiver receives).origin, sameParagraph]
    exact inside first (List.mem_of_head? firstCell)
  obtain ⟨paragraph', run, leads⟩ := placed receiver inEdited
  obtain rfl : paragraph = paragraph' := by
    have same := leads.paragraph_at
    rw [here, paragraphAt, Option.some.injEq] at same
    exact same
  have runLeft := Run.mem_survivorsOf guide.vocabulary placed inEdited leads
  have childLeft :=
    Run.mem_survivorsOf_of_not_run guide.vocabulary placed paragraphAt childAt other
  have sorted := Run.sorted_survivorsOf guide.vocabulary group edited number
  rw [here] at runLeft
  refine ⟨?_, ?_, ?_⟩
  · have nonempty : span ≠ [] := by
      rintro rfl
      simp at firstCell
    obtain ⟨template, chosen⟩ := templateOf?_isSome (front.flatMap Piece.result).reverse
      (back.flatMap Piece.source) nonempty
    refine ⟨template, chosen, ?_⟩
    have writtenEq := written_eq_writtenCells split
    rw [List.append_nil, writtenCells, chosen, Option.map_some, Option.getD_some, valueCells]
      at writtenEq
    rw [writtenEq] at receives
    obtain ⟨c, _, rfl⟩ := List.mem_map.1 receives
    rfl
  · obtain ⟨rebuilt, text, rebuiltAt, runAt⟩ :=
      Run.exists_rebuilt_run guide.vocabulary placed inEdited leads
    have children := Run.getElem?_regroup guide.vocabulary paragraphAt edited
    rw [here, children, Option.some.injEq] at rebuiltAt
    refine ⟨rebuilt, run, text, ?_, leads.run_at, runAt, ?_⟩
    · rw [regrouped, children, rebuiltAt]
    · rw [← rebuiltAt]
      exact Run.getElem?_newIndex sorted childLeft
  · have different : receiver.origin.run ≠ index := by
      intro same
      have isRun := leads.run_at
      rw [same, childAt, Option.some.injEq] at isRun
      have named := leads.isRun
      rw [← isRun, other] at named
      exact Bool.false_ne_true named
    apply sameSide_iff_not_standsBetween different
    · show Run.newRun guide.vocabulary group edited receiver.origin < fixed ↔ _
      rw [Run.newRun, here]
      exact Run.newIndex_lt_newIndex_iff sorted runLeft index
    · show fixed < Run.newRun guide.vocabulary group edited receiver.origin ↔ _
      rw [Run.newRun, here]
      exact Run.newIndex_lt_newIndex_iff sorted childLeft receiver.origin.run

end

end Guide

def bookmarkEnd : Element :=
  ⟨['w', ':', 'b', 'o', 'o', 'k', 'm', 'a', 'r', 'k', 'E', 'n', 'd'], [], [], [], true⟩

/-- The placeholder stands in front of a bookmark, and the value goes into the run behind it. -/
theorem value_jumps_over_bookmark :
    let group := [paragraphOf [textRun ['{', '{', 'a', '}', '}'], bookmarkEnd, textRun ['.']]]
    let resolve := fun _ : Text => some ['A']
    let edited := Guide.standard.edited resolve group
    let span := Run.cellsOfRun Vocabulary.standard 0 0 (textRun ['{', '{', 'a', '}', '}'])
    let receiver := Cell.ofChar (some 'A') ⟨0, 2, some 0⟩
    (∀ element, element ∈ group → Guide.standard.isParagraph element = true) ∧
      (Guide.standard.passed resolve group).outcome = .ok ⟨1, 0⟩ ∧
      Guide.standard.pieces resolve group
        = [.kept [], .replaced span ['A'] [receiver],
          .kept (Run.cellsOfRun Vocabulary.standard 0 2 (textRun ['.']))] ∧
      ((Guide.standard.fillGroup group).run resolve).result
        = [paragraphOf [bookmarkEnd, textRun ['A', '.']]] ∧
      ¬ SameSide span 1 (Run.newRun Vocabulary.standard group edited receiver.origin)
        (Run.newIndex (Run.survivorsOf Vocabulary.standard group edited 0) 1) := by
  intro group resolve edited span receiver
  refine ⟨by decide, by cbv, by cbv, by cbv, ?_⟩
  have row : edited
      = receiver :: Run.cellsOfRun Vocabulary.standard 0 2 (textRun ['.']) := by
    show Guide.standard.edited resolve group = _
    cbv
  have place : Run.newRun Vocabulary.standard group edited receiver.origin = 1 := by
    rw [row]
    cbv
  have fixed : Run.newIndex (Run.survivorsOf Vocabulary.standard group edited 0) 1 = 0 := by
    rw [row]
    cbv
  rw [place, fixed]
  rintro ⟨before, _⟩
  have front : ∀ cell, cell ∈ span → cell.origin.run < 1 := by decide
  exact absurd (before front) (by decide)

/-- A value that stays in the run of its placeholder stays behind a bookmark in front of it. -/
theorem value_stays_behind_bookmark :
    let group := [paragraphOf [bookmarkEnd, textRun ['{', '{', 'a', '}', '}', '.']]]
    let resolve := fun _ : Text => some ['A']
    let edited := Guide.standard.edited resolve group
    let receiver := Cell.ofChar (some 'A') ⟨0, 1, some 0⟩
    (Guide.standard.passed resolve group).outcome = .ok ⟨1, 0⟩ ∧
      SameSide ((Run.cellsOfRun Vocabulary.standard 0 1
          (textRun ['{', '{', 'a', '}', '}', '.'])).take 5) 0
        (Run.newRun Vocabulary.standard group edited receiver.origin)
        (Run.newIndex (Run.survivorsOf Vocabulary.standard group edited 0) 0) := by
  intro group resolve edited receiver
  let run := Run.cellsOfRun Vocabulary.standard 0 1 (textRun ['{', '{', 'a', '}', '}', '.'])
  have success : (Guide.standard.passed resolve group).outcome = .ok ⟨1, 0⟩ := by cbv
  have split : Guide.standard.pieces resolve group
      = [.kept []] ++ .replaced (run.take 5) ['A'] [receiver] :: [.kept (run.drop 5)] := by cbv
  have inside : ∀ cell, cell ∈ run.take 5 → cell.origin.paragraph = 0 := by decide
  have childAt : (paragraphOf [bookmarkEnd, textRun ['{', '{', 'a', '}', '}', '.']]).children[0]?
      = some bookmarkEnd := rfl
  obtain ⟨_, _, sameSide⟩ := Guide.value_sameSide_iff Guide.standard resolve (by decide) success
    split inside (List.mem_singleton_self receiver) rfl childAt (by decide)
  refine ⟨success, sameSide.2 ?_⟩
  rintro (⟨earlier, _⟩ | ⟨_, jumps⟩)
  · have behind : ¬ ∀ cell, cell ∈ run.take 5 → cell.origin.run < 0 := by decide
    exact behind earlier
  · exact absurd jumps (by decide)

end MailMerge.Fill
