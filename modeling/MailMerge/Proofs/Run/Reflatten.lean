import MailMerge.Proofs.Run.Regroup

set_option autoImplicit false

namespace MailMerge.Run

open Markup (Element)

/-- A run that is rebuilt with a text holds this text. -/
@[simp] theorem runText_rebuildRun (vocabulary : Vocabulary) (run : Element) (text : Text) :
    runText vocabulary (rebuildRun vocabulary run (run.childIndex? vocabulary.text) text)
      = text := by
  have nameKept : ∀ child : Element × Nat,
      Element.isNamed vocabulary.text (if some child.2 = run.childIndex? vocabulary.text
        then { child.1.shell with data := text } else child.1)
        = Element.isNamed vocabulary.text child.1 := by
    intro child
    split <;> rfl
  simp only [runText, rebuildRun, Element.child?, List.find?_append, List.find?_map,
    Function.comp_def, nameKept]
  rw [Element.childIndex?, List.findIdx?_eq_fst_find?_zipIdx]
  cases run.children.zipIdx.find? fun child => Element.isNamed vocabulary.text child.1 with
  | some found => simp
  | none =>
    by_cases empty : text = []
    · simp [empty]
    · simp [empty, Element.isNamed, Element.ofData]

theorem isNamed_rebuildRun (vocabulary : Vocabulary) (run : Element) (place : Option Nat)
    (text name : Text) :
    (rebuildRun vocabulary run place text).isNamed name = run.isNamed name := rfl

theorem map_char_of_isSome {cells : List Cell}
    (isSome : ∀ cell, cell ∈ cells → cell.char.isSome) :
    cells.map Cell.char = (textOf cells).map some := by
  induction cells with
  | nil => rfl
  | cons cell rest ih =>
    obtain ⟨c, char⟩ := Option.isSome_iff_exists.1 (isSome cell (by simp))
    have tail := ih fun other member => isSome other (List.mem_cons_of_mem _ member)
    rw [List.map_cons, tail, textOf, textOf, List.filterMap_cons_some char, List.map_cons, char]

/-- The characters of the cells of one run are its text, or the run has one cell without a
character. -/
theorem map_char_of_one_run {own : List Cell} (ordered : Ordered own) (nonempty : own ≠ [])
    {paragraph run : Nat}
    (same : ∀ cell, cell ∈ own → cell.origin.paragraph = paragraph ∧ cell.origin.run = run) :
    own.map Cell.char = if textOf own = [] then [none] else (textOf own).map some := by
  cases own with
  | nil => exact absurd rfl nonempty
  | cons cell rest =>
    cases rest with
    | nil => cases char : cell.char <;> simp [textOf, char]
    | cons next rest =>
      have both : ∀ other, other ∈ next :: rest → cell.char.isSome ∧ other.char.isSome := by
        intro other member
        have precedes := (List.pairwise_cons.1 ordered).1 other member
        have here := same cell (by simp)
        have there := same other (List.mem_cons_of_mem _ member)
        rcases precedes with earlier | ⟨_, earlier | ⟨_, firstChar, secondChar⟩⟩
        · omega
        · omega
        · exact ⟨firstChar, secondChar⟩
      have all : ∀ other, other ∈ cell :: next :: rest → other.char.isSome := by
        intro other member
        rcases List.mem_cons.1 member with rfl | inRest
        · exact (both next (by simp)).1
        · exact (both other inRest).2
      have chars := map_char_of_isSome all
      have filled : textOf (cell :: next :: rest) ≠ [] := by
        intro empty
        rw [empty] at chars
        simp at chars
      rw [if_neg filled, chars]

/-- The index that a child has among the children that are left. -/
def newIndex (left : List (Nat × Element)) (index : Nat) : Nat :=
  left.countP fun child => child.1 < index

theorem sorted_survivors (vocabulary : Vocabulary) (cells : List Cell) (paragraph : Element) :
    (survivors vocabulary cells paragraph).Pairwise fun first second => first.1 < second.1 := by
  apply (pairwise_lt_zipIdx paragraph.children 0).filterMap
  intro first second earlier left isLeft right isRight
  obtain ⟨_, _, rfl⟩ := Option.map_eq_some_iff.1 isLeft
  obtain ⟨_, _, rfl⟩ := Option.map_eq_some_iff.1 isRight
  exact earlier

theorem newIndex_append_cons {front behind : List (Nat × Element)} {child : Nat × Element}
    (sorted : (front ++ child :: behind).Pairwise fun first second => first.1 < second.1) :
    newIndex (front ++ child :: behind) child.1 = front.length := by
  obtain ⟨_, sortedBehind, across⟩ := List.pairwise_append.1 sorted
  have before : front.countP (fun other => other.1 < child.1) = front.length := by
    rw [List.countP_eq_length]
    intro other member
    exact decide_eq_true (across other member child (by simp))
  have after : behind.countP (fun other => other.1 < child.1) = 0 := by
    rw [List.countP_eq_zero]
    intro other member
    have later := (List.pairwise_cons.1 sortedBehind).1 other member
    simp only [decide_eq_true_eq]
    omega
  rw [newIndex, List.countP_append, List.countP_cons, before, after]
  simp

/-- The children that are left stand at their new indices. -/
theorem zipIdx_map_snd_of_sorted {left : List (Nat × Element)}
    (sorted : left.Pairwise fun first second => first.1 < second.1) :
    (left.map Prod.snd).zipIdx = left.map fun child => (child.2, newIndex left child.1) := by
  -- A new index counts the children in front, so the induction carries them along.
  suffices general : ∀ front behind : List (Nat × Element), left = front ++ behind →
      (behind.map Prod.snd).zipIdx front.length
        = behind.map fun child => (child.2, newIndex left child.1) from general [] left rfl
  intro front behind split
  induction behind generalizing front with
  | nil => rfl
  | cons child behind ih =>
    have next := ih (front ++ [child]) (by simpa using split)
    rw [List.length_append, List.length_singleton] at next
    rw [List.map_cons, List.zipIdx_cons, next, List.map_cons, split,
      newIndex_append_cons (split ▸ sorted)]

theorem getElem?_newIndex {left : List (Nat × Element)} {child : Nat × Element}
    (sorted : left.Pairwise fun first second => first.1 < second.1) (member : child ∈ left) :
    (left.map Prod.snd)[newIndex left child.1]? = some child.2 := by
  obtain ⟨front, behind, rfl⟩ := List.append_of_mem member
  rw [newIndex_append_cons sorted, List.map_append, List.getElem?_append_right (by simp)]
  simp

theorem newIndex_mono (left : List (Nat × Element)) {first second : Nat} (least : first ≤ second) :
    newIndex left first ≤ newIndex left second := by
  apply List.countP_mono_left
  intro child _ before
  rw [decide_eq_true_eq] at before ⊢
  omega

/-- A child that is left keeps its order with every other index. -/
theorem newIndex_lt_newIndex_iff {left : List (Nat × Element)} {child : Nat × Element}
    (sorted : left.Pairwise fun first second => first.1 < second.1) (member : child ∈ left)
    (index : Nat) : newIndex left child.1 < newIndex left index ↔ child.1 < index := by
  constructor
  · intro before
    by_contra behind
    have := newIndex_mono left (Nat.le_of_not_lt behind)
    omega
  · intro before
    obtain ⟨front, behind, rfl⟩ := List.append_of_mem member
    have all : front.countP (fun other => other.1 < index) = front.length := by
      rw [List.countP_eq_length]
      intro other inFront
      have earlier := (List.pairwise_append.1 sorted).2.2 other inFront child (by simp)
      exact decide_eq_true (Nat.lt_trans earlier before)
    rw [newIndex_append_cons sorted, newIndex, List.countP_append, all,
      List.countP_cons_of_pos (by simpa using before)]
    omega

theorem flatMap_stretches (key : Cell → Nat) (cells : List Cell) :
    ((stretches key cells).flatMap fun (head, tail) => head :: tail) = cells := by
  induction cells with
  | nil => rfl
  | cons cell rest ih =>
    rw [stretches]
    split
    · rename_i noneLeft
      rw [noneLeft] at ih
      rw [← ih]
      rfl
    · rename_i head tail others first
      rw [first] at ih
      split
      · rw [← ih]
        rfl
      · rw [← ih]
        rfl

theorem eq_flatMap_filter_of_sorted {ι : Type} (key : Cell → Nat) (items : List ι)
    {cells : List Cell} (sorted : cells.Pairwise fun first second => key first ≤ key second)
    (bound : ∀ cell, cell ∈ cells → key cell < items.length) :
    cells = items.zipIdx.flatMap fun (_, index) => cells.filter fun cell => key cell = index := by
  have built := build_stretches key items
    (fun _ cut => cut.flatMap fun (head, tail) => head :: tail) (fun _ own => own) rfl
    (fun _ _ _ _ _ => rfl) (fun _ _ _ _ _ => rfl) 0 (Nat.zero_le _) cells sorted
    fun cell member => ⟨Nat.zero_le _, bound cell member⟩
  rwa [flatMap_stretches] at built

/-- What a row shows of a cell: its character, its paragraph and its run. -/
def Cell.view (cell : Cell) : Option Char × Nat × Nat :=
  (cell.char, cell.origin.paragraph, cell.origin.run)

theorem map_view_cellsOfRun (vocabulary : Vocabulary) (paragraph index : Nat) (run : Element) :
    (cellsOfRun vocabulary paragraph index run).map Cell.view
      = ((cellsOfRun vocabulary paragraph index run).map Cell.char).map fun char =>
        (char, paragraph, index) := by
  rw [List.map_map]
  apply List.map_congr_left
  intro cell member
  obtain ⟨origin, _⟩ := origin_of_mem_cellsOfRun member
  simp [Cell.view, origin]

section

variable (vocabulary : Vocabulary) {own : List Cell} {paragraph : Element} {number : Nat}

/-- Reading what is left of a child gives its cells back. -/
theorem cellsOfRun_rebuiltChild? (ordered : Ordered own) {child : Element} {index : Nat}
    (place : Nat)
    (same : ∀ cell, cell ∈ own → cell.origin.paragraph = number ∧ cell.origin.run = index ∧
      child.isNamed vocabulary.run = true ∧
      cell.origin.text = child.childIndex? vocabulary.text) :
    ((rebuiltChild? vocabulary own child).toList.flatMap fun rebuilt =>
        if rebuilt.isNamed vocabulary.run then cellsOfRun vocabulary number place rebuilt
        else []).map Cell.view
      = own.map fun cell => (cell.char, number, place) := by
  cases own with
  | nil =>
    rw [rebuiltChild?]
    by_cases isRun : child.isNamed vocabulary.run = true <;> simp [isRun]
  | cons head tail =>
    obtain ⟨_, _, isRun, text⟩ := same head (by simp)
    have chars := map_char_of_one_run ordered (List.cons_ne_nil head tail)
      fun cell member => ⟨(same cell member).1, (same cell member).2.1⟩
    rw [rebuiltChild?, text, Option.toList_some, List.flatMap_singleton, isNamed_rebuildRun,
      if_pos isRun, map_view_cellsOfRun, map_char_cellsOfRun, runText_rebuildRun, ← chars,
      List.map_map]
    rfl

/-- Reading what is left of a paragraph gives its cells back, in what is left of their runs. -/
theorem cellsOfParagraph_regroupParagraph (ordered : Ordered own)
    (placed : ∀ cell, cell ∈ own → cell.origin.paragraph = number ∧
      ∃ run, paragraph.children[cell.origin.run]? = some run ∧
        run.isNamed vocabulary.run = true ∧
        cell.origin.text = run.childIndex? vocabulary.text) :
    (cellsOfParagraph vocabulary number (regroupParagraph vocabulary own paragraph)).map Cell.view
      = own.map fun cell =>
        (cell.char, number, newIndex (survivors vocabulary own paragraph) cell.origin.run) := by
  have sorted : own.Pairwise fun first second => first.origin.run ≤ second.origin.run := by
    apply ordered.imp_of_mem
    intro first second firstMember secondMember precedes
    have firstHere := (placed first firstMember).1
    have secondHere := (placed second secondMember).1
    unfold Cell.Precedes at precedes
    omega
  have parts := eq_flatMap_filter_of_sorted (fun cell => cell.origin.run) paragraph.children
    sorted fun cell member => by
      obtain ⟨_, run, runAt, _⟩ := placed cell member
      exact (List.getElem?_eq_some_iff.1 runAt).1
  obtain ⟨place, placeEq⟩ : ∃ place, place = newIndex (survivors vocabulary own paragraph) :=
    ⟨_, rfl⟩
  have image := congrArg (List.map fun cell => (cell.char, number, place cell.origin.run)) parts
  rw [cellsOfParagraph, regroupParagraph, zipIdx_map_snd_of_sorted (sorted_survivors _ _ _),
    ← placeEq, image, survivors, List.filterMap_eq_flatMap_toList, List.flatMap_map,
    List.flatMap_assoc, List.map_flatMap, List.map_flatMap]
  apply List.flatMap_congr
  rintro ⟨child, index⟩ indexed
  have childAt := List.mk_mem_zipIdx_iff_getElem?.1 indexed
  have here : ∀ cell, cell ∈ inRun index own → cell ∈ own ∧ cell.origin.run = index := by
    intro cell member
    obtain ⟨inside, run⟩ := List.mem_filter.1 member
    exact ⟨inside, of_decide_eq_true run⟩
  have fromChild : ∀ cell, cell ∈ inRun index own → cell.origin.paragraph = number ∧
      cell.origin.run = index ∧ child.isNamed vocabulary.run = true ∧
      cell.origin.text = child.childIndex? vocabulary.text := by
    intro cell member
    obtain ⟨inside, runIndex⟩ := here cell member
    obtain ⟨paragraphIndex, run, runAt, isRun, text⟩ := placed cell inside
    rw [runIndex, childAt, Option.some.injEq] at runAt
    exact ⟨paragraphIndex, runIndex, runAt ▸ isRun, runAt ▸ text⟩
  rw [Option.toList_map, List.flatMap_map]
  refine (cellsOfRun_rebuiltChild? vocabulary (ordered.filter _) (place index) fromChild).trans ?_
  apply List.map_congr_left
  intro cell member
  rw [(here cell member).2]

/-- The children that are left of one paragraph of a group. -/
def survivorsOf (group : List Element) (cells : List Cell) (number : Nat) : List (Nat × Element) :=
  ((group[number]?).map (survivors vocabulary (inParagraph number cells))).getD []

/-- The index that a run has in its paragraph when the group is rebuilt. -/
def newRun (group : List Element) (cells : List Cell) (origin : Origin) : Nat :=
  newIndex (survivorsOf vocabulary group cells origin.paragraph) origin.run

theorem zipIdx_regroup (group : List Element) (cells : List Cell) :
    (regroup vocabulary group cells).zipIdx = group.zipIdx.map fun (paragraph, index) =>
      (regroupParagraph vocabulary (inParagraph index cells) paragraph, index) := by
  rw [regroup, zipIdx_map_zipIdx]

theorem isParagraph_of_mem_regroup {group : List Element} {cells : List Cell}
    (paragraphs : ∀ element, element ∈ group → isParagraph vocabulary element = true)
    {rebuilt : Element} (member : rebuilt ∈ regroup vocabulary group cells) :
    isParagraph vocabulary rebuilt = true := by
  obtain ⟨⟨paragraph, index⟩, indexed, rfl⟩ := List.mem_map.1 member
  exact paragraphs paragraph (List.fst_mem_of_mem_zipIdx indexed)

/-- Reading a rebuilt group gives its cells back, in what is left of their runs. -/
theorem map_view_flatten_regroup {group : List Element} {cells : List Cell}
    (paragraphs : ∀ element, element ∈ group → isParagraph vocabulary element = true)
    (ordered : Ordered cells) (placed : Placed vocabulary group cells) :
    (flatten vocabulary (regroup vocabulary group cells)).map Cell.view
      = cells.map fun cell =>
        (cell.char, cell.origin.paragraph, newRun vocabulary group cells cell.origin) := by
  have parts := eq_flatMap_filter_of_sorted (fun cell => cell.origin.paragraph) group
    (sorted_paragraph ordered.sorted) fun cell member => by
    obtain ⟨paragraph, run, leads⟩ := placed cell member
    exact (List.getElem?_eq_some_iff.1 leads.paragraph_at).1
  obtain ⟨place, placeEq⟩ : ∃ place, place = newRun vocabulary group cells := ⟨_, rfl⟩
  have image :=
    congrArg (List.map fun cell => (cell.char, cell.origin.paragraph, place cell.origin)) parts
  rw [flatten, leadingParagraphs_eq_self fun _ => isParagraph_of_mem_regroup vocabulary paragraphs,
    zipIdx_regroup, ← placeEq, image, List.flatMap_map, List.map_flatMap, List.map_flatMap]
  apply List.flatMap_congr
  rintro ⟨paragraph, number⟩ indexed
  have paragraphAt := List.mk_mem_zipIdx_iff_getElem?.1 indexed
  have here : ∀ cell, cell ∈ inParagraph number cells →
      cell ∈ cells ∧ cell.origin.paragraph = number := by
    intro cell member
    obtain ⟨inside, index⟩ := List.mem_filter.1 member
    exact ⟨inside, of_decide_eq_true index⟩
  have fromParagraph : ∀ cell, cell ∈ inParagraph number cells → cell.origin.paragraph = number ∧
      ∃ run, paragraph.children[cell.origin.run]? = some run ∧
        run.isNamed vocabulary.run = true ∧
        cell.origin.text = run.childIndex? vocabulary.text := by
    intro cell member
    obtain ⟨inside, index⟩ := here cell member
    obtain ⟨_, run, leads⟩ := placed cell inside
    have same := leads.paragraph_at
    rw [index, paragraphAt, Option.some.injEq] at same
    exact ⟨index, run, same ▸ leads.run_at, leads.isRun, leads.text_at⟩
  refine (cellsOfParagraph_regroupParagraph vocabulary (ordered.filter _) fromParagraph).trans ?_
  apply List.map_congr_left
  intro cell member
  rw [placeEq, newRun, (here cell member).2, survivorsOf, paragraphAt]
  rfl

/-- Reading a rebuilt group gives the characters of its cells back. -/
theorem map_char_flatten_regroup {group : List Element} {cells : List Cell}
    (paragraphs : ∀ element, element ∈ group → isParagraph vocabulary element = true)
    (ordered : Ordered cells) (placed : Placed vocabulary group cells) :
    (flatten vocabulary (regroup vocabulary group cells)).map Cell.char = cells.map Cell.char := by
  have views := map_view_flatten_regroup vocabulary paragraphs ordered placed
  have chars := congrArg (List.map Prod.fst) views
  rw [List.map_map, List.map_map] at chars
  exact chars

theorem sorted_survivorsOf (group : List Element) (cells : List Cell) (number : Nat) :
    (survivorsOf vocabulary group cells number).Pairwise fun first second =>
      first.1 < second.1 := by
  rw [survivorsOf]
  cases group[number]? with
  | none => exact List.Pairwise.nil
  | some paragraph => exact sorted_survivors vocabulary _ paragraph

/-- The children of a rebuilt paragraph are those that are left of it. -/
theorem getElem?_regroup {group : List Element} {number : Nat} {paragraph : Element}
    (here : group[number]? = some paragraph) (cells : List Cell) :
    (regroup vocabulary group cells)[number]?
      = some { paragraph with
        children := (survivorsOf vocabulary group cells number).map Prod.snd } := by
  simp only [regroup, List.getElem?_map, List.getElem?_zipIdx, here, Option.map_some,
    Nat.zero_add, survivorsOf, Option.getD_some]
  rfl

/-- A run that has a cell is left, rebuilt with the text of its cells. -/
theorem mem_survivorsOf {group : List Element} {cells : List Cell} {cell : Cell}
    {paragraph run : Element} (placed : Placed vocabulary group cells) (member : cell ∈ cells)
    (leads : cell.LeadsTo vocabulary group paragraph run) :
    (cell.origin.run, rebuildRun vocabulary run (run.childIndex? vocabulary.text)
        (textOf (inRun cell.origin.run (inParagraph cell.origin.paragraph cells))))
      ∈ survivorsOf vocabulary group cells cell.origin.paragraph := by
  have own : cell ∈ inRun cell.origin.run (inParagraph cell.origin.paragraph cells) :=
    mem_inRun_inParagraph.2 ⟨member, rfl, rfl⟩
  rw [survivorsOf, leads.paragraph_at, Option.map_some, Option.getD_some]
  refine List.mem_filterMap.2
    ⟨(run, cell.origin.run), List.mk_mem_zipIdx_iff_getElem?.2 leads.run_at, ?_⟩
  dsimp only
  cases same : inRun cell.origin.run (inParagraph cell.origin.paragraph cells) with
  | nil =>
    rw [same] at own
    exact absurd own List.not_mem_nil
  | cons head tail =>
    have inside : head ∈ inRun cell.origin.run (inParagraph cell.origin.paragraph cells) := by
      rw [same]
      exact List.mem_cons_self
    have headLeads := placed.leadsTo leads.paragraph_at leads.run_at inside
    rw [rebuiltChild?, headLeads.text_at, Option.map_some]

/-- A child of another kind is left as it is. -/
theorem mem_survivorsOf_of_not_run {group : List Element} {cells : List Cell}
    {paragraph child : Element} {number index : Nat}
    (placed : Placed vocabulary group cells) (paragraphAt : group[number]? = some paragraph)
    (childAt : paragraph.children[index]? = some child)
    (other : child.isNamed vocabulary.run = false) :
    (index, child) ∈ survivorsOf vocabulary group cells number := by
  have noneOwn : inRun index (inParagraph number cells) = [] := by
    rw [List.eq_nil_iff_forall_not_mem]
    intro cell member
    have isRun := (placed.leadsTo paragraphAt childAt member).isRun
    rw [other] at isRun
    exact Bool.false_ne_true isRun
  rw [survivorsOf, paragraphAt, Option.map_some, Option.getD_some]
  refine List.mem_filterMap.2 ⟨(child, index), List.mk_mem_zipIdx_iff_getElem?.2 childAt, ?_⟩
  simp [noneOwn, rebuiltChild?, other]

/-- Every run with a cell stands in its rebuilt paragraph at its new index. -/
theorem exists_rebuilt_run {group : List Element} {cells : List Cell} {cell : Cell}
    {paragraph run : Element} (placed : Placed vocabulary group cells) (member : cell ∈ cells)
    (leads : cell.LeadsTo vocabulary group paragraph run) :
    ∃ rebuilt text, (regroup vocabulary group cells)[cell.origin.paragraph]? = some rebuilt ∧
      rebuilt.children[newRun vocabulary group cells cell.origin]?
        = some (rebuildRun vocabulary run (run.childIndex? vocabulary.text) text) :=
  ⟨_, _, getElem?_regroup vocabulary leads.paragraph_at cells,
    getElem?_newIndex (sorted_survivorsOf vocabulary group cells cell.origin.paragraph)
      (mem_survivorsOf vocabulary placed member leads)⟩

/-- Runs with cells keep their order. -/
theorem newRun_lt_newRun_iff {group : List Element} {cells : List Cell} {first second : Cell}
    (placed : Placed vocabulary group cells) (firstMember : first ∈ cells)
    (same : first.origin.paragraph = second.origin.paragraph) :
    newRun vocabulary group cells first.origin < newRun vocabulary group cells second.origin ↔
      first.origin.run < second.origin.run := by
  obtain ⟨paragraph, run, leads⟩ := placed first firstMember
  unfold newRun
  rw [← same]
  exact newIndex_lt_newIndex_iff (sorted_survivorsOf vocabulary group cells _)
    (mem_survivorsOf vocabulary placed firstMember leads) second.origin.run

end

end MailMerge.Run
