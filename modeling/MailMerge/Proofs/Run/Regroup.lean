import MailMerge.Proofs.Run.Order
import MailMerge.Run.Rebuild
import Mathlib.Data.List.Basic

set_option autoImplicit false

namespace MailMerge.Run

open Markup (Element)

def inParagraph (index : Nat) (cells : List Cell) : List Cell :=
  cells.filter fun cell => cell.origin.paragraph = index

/-- The cells of one run, among the cells of a paragraph. -/
def inRun (index : Nat) (cells : List Cell) : List Cell :=
  cells.filter fun cell => cell.origin.run = index

/-- What is left of a child of a paragraph: a child with cells is rebuilt from them, and of the
others only the runs are gone. -/
def rebuiltChild? (vocabulary : Vocabulary) (own : List Cell) (child : Element) : Option Element :=
  match own with
  | [] => if child.isNamed vocabulary.run then none else some child
  | head :: tail => some (rebuildRun vocabulary child head.origin.text (textOf (head :: tail)))

/-- The children that are left of a paragraph, with the indices that they had. -/
def survivors (vocabulary : Vocabulary) (cells : List Cell) (paragraph : Element) :
    List (Nat × Element) :=
  paragraph.children.zipIdx.filterMap fun (child, index) =>
    (rebuiltChild? vocabulary (inRun index cells) child).map fun rebuilt => (index, rebuilt)

def regroupParagraph (vocabulary : Vocabulary) (cells : List Cell) (paragraph : Element) :
    Element :=
  { paragraph with children := (survivors vocabulary cells paragraph).map Prod.snd }

/-- A group of paragraphs, each with the children that are left of it. -/
def regroup (vocabulary : Vocabulary) (group : List Element) (cells : List Cell) : List Element :=
  group.zipIdx.map fun (paragraph, index) =>
    regroupParagraph vocabulary (inParagraph index cells) paragraph

theorem sorted_paragraph {cells : List Cell} (sorted : cells.Pairwise Cell.NotBehind) :
    cells.Pairwise fun first second => first.origin.paragraph ≤ second.origin.paragraph := by
  apply sorted.imp
  intro first second notBehind
  unfold Cell.NotBehind at notBehind
  omega

theorem sorted_run {cells : List Cell} (sorted : cells.Pairwise Cell.NotBehind) (index : Nat) :
    (inParagraph index cells).Pairwise fun first second =>
      first.origin.run ≤ second.origin.run := by
  apply (sorted.filter _).imp_of_mem
  intro first second firstMember secondMember notBehind
  have firstHere : first.origin.paragraph = index := by
    simpa using (List.mem_filter.1 firstMember).2
  have secondHere : second.origin.paragraph = index := by
    simpa using (List.mem_filter.1 secondMember).2
  unfold Cell.NotBehind at notBehind
  omega

theorem mem_inRun_inParagraph {cell : Cell} {number index : Nat} {cells : List Cell} :
    cell ∈ inRun index (inParagraph number cells) ↔
      cell ∈ cells ∧ cell.origin.paragraph = number ∧ cell.origin.run = index := by
  simp only [inRun, inParagraph, List.mem_filter, decide_eq_true_eq, and_assoc]

/-- The cells of one child lead back to this child. -/
theorem Placed.leadsTo {vocabulary : Vocabulary} {group : List Element} {cells : List Cell}
    (placed : Placed vocabulary group cells) {number index : Nat} {paragraph child : Element}
    (paragraphAt : group[number]? = some paragraph)
    (childAt : paragraph.children[index]? = some child) {cell : Cell}
    (member : cell ∈ inRun index (inParagraph number cells)) :
    cell.LeadsTo vocabulary group paragraph child := by
  obtain ⟨inside, paragraphIndex, runIndex⟩ := mem_inRun_inParagraph.1 member
  obtain ⟨paragraph', run, leads⟩ := placed cell inside
  have sameParagraph := leads.paragraph_at
  rw [paragraphIndex, paragraphAt, Option.some.injEq] at sameParagraph
  have sameRun := leads.run_at
  rw [runIndex, ← sameParagraph, childAt, Option.some.injEq] at sameRun
  rwa [sameParagraph, sameRun]

section

variable {key : Cell → Nat}

/-- Sorted cells begin with all the cells that have the smallest key. -/
theorem filter_append_filter_of_sorted {cells : List Cell} {least : Nat}
    (sorted : cells.Pairwise fun first second => key first ≤ key second)
    (bound : ∀ cell, cell ∈ cells → least ≤ key cell) :
    cells = (cells.filter fun cell => key cell = least)
      ++ cells.filter fun cell => least < key cell := by
  induction cells with
  | nil => rfl
  | cons cell rest ih =>
    obtain ⟨below, sortedRest⟩ := List.pairwise_cons.1 sorted
    have split := ih sortedRest fun other member => bound other (List.mem_cons_of_mem _ member)
    by_cases here : key cell = least
    · rw [List.filter_cons_of_pos (by simp [here]), List.filter_cons_of_neg (by simp [here]),
        List.cons_append, ← split]
    · have after : least < key cell := by
        have later := bound cell (by simp)
        omega
      have absent : (rest.filter fun other => key other = least) = [] := by
        rw [List.filter_eq_nil_iff]
        intro other member
        have later := below other member
        simp only [decide_eq_true_eq]
        omega
      rw [absent, List.nil_append] at split
      rw [List.filter_cons_of_neg (by simp [here]), List.filter_cons_of_pos (by simp [after]),
        absent, List.nil_append, ← split]

theorem filter_filter_of_lt {next index : Nat} (later : next < index) (cells : List Cell) :
    (cells.filter fun cell => next < key cell).filter (fun cell => key cell = index)
      = cells.filter fun cell => key cell = index := by
  rw [List.filter_filter]
  apply List.filter_congr
  intro cell _
  by_cases own : key cell = index
  · simp [own, later]
  · simp [own]

variable (key) in
theorem head?_stretches (cells : List Cell) :
    (stretches key cells).head?.map Prod.fst = cells.head? := by
  cases cells with
  | nil => rfl
  | cons cell rest =>
    rw [stretches]
    split
    · rfl
    · split <;> rfl

/-- Cells with one key in front of cells with other keys are the first stretch. -/
theorem stretches_append {head : Cell} {tail rest : List Cell} {least : Nat}
    (own : ∀ cell, cell ∈ head :: tail → key cell = least)
    (others : ∀ cell, cell ∈ rest → key cell ≠ least) :
    stretches key (head :: tail ++ rest) = (head, tail) :: stretches key rest := by
  induction tail generalizing head with
  | nil =>
    rw [List.cons_append, List.nil_append, stretches]
    split
    · rename_i empty
      rw [empty]
    · rename_i first stretch behind same
      have firstCell : rest.head? = some first := by
        rw [← head?_stretches key, same]
        rfl
      have different := others first (List.mem_of_head? firstCell)
      have equal := own head (by simp)
      rw [if_neg (by omega), same]
  | cons next tail ih =>
    have inner : stretches key (next :: tail ++ rest) = (next, tail) :: stretches key rest :=
      ih fun cell member => own cell (List.mem_cons_of_mem _ member)
    have first := own head (by simp)
    have second := own next (by simp)
    rw [List.cons_append, stretches, inner]
    simp only [first, second, ↓reduceIte]

variable (key) in
/-- A builder that reads sorted cells stretch by stretch treats its items one by one, each with the
cells that carry its index. -/
theorem build_stretches {ι β : Type} (items : List ι)
    (build : Nat → List (Cell × List Cell) → List β) (piece : ι → List Cell → List β)
    (finish : build items.length [] = [])
    (skip : ∀ next item others, items[next]? = some item →
      (∀ stretch, others.head? = some stretch → next < key stretch.1) →
      build next others = piece item [] ++ build (next + 1) others)
    (take : ∀ item head tail others, items[key head]? = some item →
      build (key head) ((head, tail) :: others)
        = piece item (head :: tail) ++ build (key head + 1) others)
    (next : Nat) (reached : next ≤ items.length) (cells : List Cell)
    (sorted : cells.Pairwise fun first second => key first ≤ key second)
    (bound : ∀ cell, cell ∈ cells → next ≤ key cell ∧ key cell < items.length) :
    build next (stretches key cells)
      = ((items.drop next).zipIdx next).flatMap fun (item, index) =>
        piece item (cells.filter fun cell => key cell = index) := by
  -- The recursion is on the items; the cells of the item at hand are a prefix of the row.
  by_cases ended : next = items.length
  · subst ended
    have empty : cells = [] := by
      apply List.eq_nil_iff_forall_not_mem.2
      intro cell member
      have range := bound cell member
      omega
    rw [empty, stretches, finish, List.drop_length]
    rfl
  · have inside : next < items.length := by omega
    have here : items[next]? = some items[next] := List.getElem?_eq_getElem inside
    have split := filter_append_filter_of_sorted sorted fun cell member => (bound cell member).1
    obtain ⟨rest, restEq⟩ : ∃ rest, rest = cells.filter fun cell => next < key cell := ⟨_, rfl⟩
    have after : ∀ cell, cell ∈ rest → next < key cell ∧ key cell < items.length := by
      intro cell member
      rw [restEq, List.mem_filter] at member
      exact ⟨by simpa using member.2, (bound cell member.1).2⟩
    have tail : (((items.drop (next + 1)).zipIdx (next + 1)).flatMap fun (item, index) =>
          piece item (cells.filter fun cell => key cell = index))
        = build (next + 1) (stretches key rest) := by
      rw [build_stretches items build piece finish skip take (next + 1) inside rest
        (restEq ▸ sorted.filter _) after]
      apply List.flatMap_congr
      rintro ⟨item, index⟩ member
      have later : next < index := List.le_snd_of_mem_zipIdx member
      dsimp only
      rw [restEq, filter_filter_of_lt later]
    rw [List.drop_eq_getElem_cons inside, List.zipIdx_cons, List.flatMap_cons, tail]
    dsimp only
    rw [← restEq] at split
    cases own : cells.filter fun cell => key cell = next with
    | nil =>
      rw [own, List.nil_append] at split
      rw [← split] at after ⊢
      apply skip next _ _ here
      intro stretch first
      have firstCell := head?_stretches key cells
      rw [first] at firstCell
      exact (after _ (List.mem_of_head? firstCell.symm)).1
    | cons head stretch =>
      have ownKey : ∀ cell, cell ∈ head :: stretch → key cell = next := by
        intro cell member
        rw [← own] at member
        simpa using (List.mem_filter.1 member).2
      have first := ownKey head (by simp)
      rw [own] at split
      rw [split, stretches_append ownKey fun cell member => Nat.ne_of_gt (after cell member).1]
      have taken := take items[next] head stretch (stretches key rest) (by rw [first]; exact here)
      rwa [first] at taken
termination_by items.length - next

end

section

variable (vocabulary : Vocabulary) (source : Element)

theorem otherChildren_self (index : Nat) : otherChildren vocabulary source index index = [] := by
  rw [otherChildren, List.drop_eq_nil_of_le (List.length_take_le _ _), List.filter_nil]

/-- The first of some children stays unless it is a run. -/
theorem otherChildren_of_lt {first last : Nat} {child : Element}
    (here : source.children[first]? = some child) (before : first < last) :
    otherChildren vocabulary source first last
      = (rebuiltChild? vocabulary [] child).toList
        ++ otherChildren vocabulary source (first + 1) last := by
  obtain ⟨inside, same⟩ := List.getElem?_eq_some_iff.1 here
  have taken : first < (source.children.take last).length := by
    rw [List.length_take]
    omega
  rw [otherChildren, List.drop_eq_getElem_cons taken, List.getElem_take, same, otherChildren,
    List.filter_cons, rebuiltChild?]
  by_cases isRun : child.isNamed vocabulary.run = true <;> simp [isRun]

/-- A child without a stretch of its own is gone if it is a run, and stays otherwise. -/
theorem rebuildChildren_of_lt {next : Nat} {child : Element}
    (here : source.children[next]? = some child) {runs : List (Cell × List Cell)}
    (later : ∀ stretch, runs.head? = some stretch → next < stretch.1.origin.run) :
    rebuildChildren vocabulary source next runs
      = (rebuiltChild? vocabulary [] child).toList
        ++ rebuildChildren vocabulary source (next + 1) runs := by
  cases runs with
  | nil =>
    obtain ⟨inside, _⟩ := List.getElem?_eq_some_iff.1 here
    exact otherChildren_of_lt vocabulary source here inside
  | cons stretch rest =>
    obtain ⟨head, tail⟩ := stretch
    rw [rebuildChildren, rebuildChildren,
      otherChildren_of_lt vocabulary source here (later (head, tail) rfl)]
    simp only [List.append_assoc]

/-- Reading the cells of a paragraph stretch by stretch rebuilds its children one by one. -/
theorem rebuildParagraph_eq (cells : List Cell)
    (sorted : cells.Pairwise fun first second => first.origin.run ≤ second.origin.run)
    (inside : ∀ cell, cell ∈ cells → cell.origin.run < source.children.length) :
    rebuildParagraph vocabulary source cells = regroupParagraph vocabulary cells source := by
  have built := build_stretches (fun cell => cell.origin.run) source.children
    (rebuildChildren vocabulary source)
    (fun child own => (rebuiltChild? vocabulary own child).toList) ?_ ?_ ?_ 0 (Nat.zero_le _) cells
    sorted fun cell member => ⟨Nat.zero_le _, inside cell member⟩
  · rw [rebuildParagraph, regroupParagraph, built, survivors, List.map_filterMap,
      List.filterMap_eq_flatMap_toList, List.drop_zero]
    congr 2
    funext ⟨child, index⟩
    simp [Function.comp_def, inRun]
  · rw [rebuildChildren]
    exact otherChildren_self vocabulary source _
  · intro next child others here later
    exact rebuildChildren_of_lt vocabulary source here later
  · intro child head tail others here
    rw [rebuildChildren, otherChildren_self, rebuildStretch, here]
    rfl

end

section

variable (vocabulary : Vocabulary) (source : List Element)

theorem stripRuns_eq (paragraph : Element) :
    stripRuns vocabulary paragraph = rebuildParagraph vocabulary paragraph [] := by
  rw [stripRuns, rebuildParagraph, stretches, rebuildChildren, otherChildren, List.take_length,
    List.drop_zero]

theorem strippedParagraphs_self (index : Nat) :
    strippedParagraphs vocabulary source index index = [] := by
  rw [strippedParagraphs, List.drop_eq_nil_of_le (List.length_take_le _ _), List.map_nil]

theorem strippedParagraphs_of_lt {first last : Nat} {paragraph : Element}
    (here : source[first]? = some paragraph) (before : first < last) :
    strippedParagraphs vocabulary source first last
      = rebuildParagraph vocabulary paragraph []
        :: strippedParagraphs vocabulary source (first + 1) last := by
  obtain ⟨inside, same⟩ := List.getElem?_eq_some_iff.1 here
  have taken : first < (source.take last).length := by
    rw [List.length_take]
    omega
  rw [strippedParagraphs, List.drop_eq_getElem_cons taken, List.getElem_take, same,
    strippedParagraphs, List.map_cons, stripRuns_eq]

/-- A paragraph without a stretch of its own loses its runs. -/
theorem rebuildParagraphs_of_lt {count next : Nat} {paragraph : Element}
    (here : source[next]? = some paragraph) (counted : next < count)
    {groups : List (Cell × List Cell)}
    (later : ∀ stretch, groups.head? = some stretch → next < stretch.1.origin.paragraph) :
    rebuildParagraphs vocabulary source count next groups
      = rebuildParagraph vocabulary paragraph []
        :: rebuildParagraphs vocabulary source count (next + 1) groups := by
  cases groups with
  | nil => exact strippedParagraphs_of_lt vocabulary source here counted
  | cons stretch rest =>
    obtain ⟨head, tail⟩ := stretch
    have skipped := strippedParagraphs_of_lt vocabulary source here (later (head, tail) rfl)
    simp only [rebuildParagraphs, skipped, List.cons_append, List.length_cons]
    congr 4
    omega

/-- Rebuilding a group from a sorted row treats each of its paragraphs by itself, and each child by
itself: nothing depends on the order in which the cells are read. -/
theorem rebuild_eq_regroup (count : Nat) (fits : count ≤ source.length) (cells : List Cell)
    (sorted : cells.Pairwise Cell.NotBehind)
    (inside : ∀ cell, cell ∈ cells → ∃ paragraph,
      (source.take count)[cell.origin.paragraph]? = some paragraph ∧
        cell.origin.run < paragraph.children.length) :
    rebuild vocabulary source count cells = regroup vocabulary (source.take count) cells := by
  have taken : (source.take count).length = count := List.length_take_of_le fits
  have built := build_stretches (fun cell => cell.origin.paragraph) (source.take count)
    (rebuildParagraphs vocabulary source count)
    (fun paragraph own => [rebuildParagraph vocabulary paragraph own]) ?_ ?_ ?_ 0 (Nat.zero_le _)
    cells (sorted_paragraph sorted) fun cell member => ⟨Nat.zero_le _, ?_⟩
  · rw [rebuild, built, regroup, List.drop_zero, List.map_eq_flatMap]
    apply List.flatMap_congr
    rintro ⟨paragraph, index⟩ member
    have paragraphAt := List.mk_mem_zipIdx_iff_getElem?.1 member
    refine congrArg (fun rebuilt => [rebuilt]) (rebuildParagraph_eq _ _ _ ?_ ?_)
    · exact sorted_run sorted index
    · intro cell own
      obtain ⟨member, here⟩ := List.mem_filter.1 own
      obtain ⟨paragraph', same, within⟩ := inside cell member
      rw [of_decide_eq_true here, paragraphAt, Option.some.injEq] at same
      rwa [same]
  · rw [rebuildParagraphs, taken]
    exact strippedParagraphs_self vocabulary source count
  · intro next paragraph others here later
    rw [List.getElem?_take, Option.ite_none_right_eq_some] at here
    obtain ⟨counted, paragraphAt⟩ := here
    exact rebuildParagraphs_of_lt vocabulary source paragraphAt counted later
  · intro paragraph head tail others here
    rw [List.getElem?_take, Option.ite_none_right_eq_some] at here
    obtain ⟨_, paragraphAt⟩ := here
    simp only [rebuildParagraphs, strippedParagraphs_self, paragraphAt]
    rfl
  · obtain ⟨paragraph, here, _⟩ := inside cell member
    exact (List.getElem?_eq_some_iff.1 here).1

/-- A whole group is rebuilt paragraph by paragraph. -/
theorem rebuild_length_eq_regroup {cells : List Cell} (ordered : Ordered cells)
    (placed : Placed vocabulary source cells) :
    rebuild vocabulary source source.length cells = regroup vocabulary source cells := by
  have regrouped := rebuild_eq_regroup vocabulary source source.length (Nat.le_refl _) cells
    ordered.sorted
  rw [List.take_length] at regrouped
  apply regrouped
  intro cell member
  obtain ⟨paragraph, run, leads⟩ := placed cell member
  exact ⟨paragraph, leads.paragraph_at, (List.getElem?_eq_some_iff.1 leads.run_at).1⟩

end

end MailMerge.Run
