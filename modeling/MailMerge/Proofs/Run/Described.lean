import MailMerge.Proofs.Run.Content
import MailMerge.Run.Cursor

set_option autoImplicit false

namespace MailMerge.Run

open Markup (Element)

/-- The children of a run, the first one of a name as an empty copy that holds a text. -/
def putText (name text : Text) : List Element → List Element
  | [] => []
  | child :: rest =>
    if child.isNamed name then { child.shell with data := text } :: rest
    else child :: putText name text rest

/-- The text element that a run without one needs for some text. -/
def newText (vocabulary : Vocabulary) (run : Element) (text : Text) : List Element :=
  if run.child? vocabulary.text = none ∧ text ≠ [] then [Element.ofData vocabulary.text text]
  else []

def withText (vocabulary : Vocabulary) (run : Element) (text : Text) : Element :=
  { run with
    children := putText vocabulary.text text run.children ++ newText vocabulary run text }

/-- A child of a paragraph for the cells that it has, if it is left. -/
def describedChild? (vocabulary : Vocabulary) (own : List Cell) (child : Element) :
    Option Element :=
  if child.isNamed vocabulary.run then
    if own = [] then none else some (withText vocabulary child (textOf own))
  else some child

/-- The paragraph of a number for the cells of its group. -/
def describedParagraph (vocabulary : Vocabulary) (cells : List Cell) (number : Nat)
    (paragraph : Element) : Element :=
  { paragraph with
    children := paragraph.children.zipIdx.filterMap fun (child, index) =>
      describedChild? vocabulary (inRun index (inParagraph number cells)) child }

def described (vocabulary : Vocabulary) (group : List Element) (cells : List Cell) :
    List Element :=
  group.zipIdx.map fun (paragraph, number) =>
    describedParagraph vocabulary cells number paragraph

/-- Every cell has the origin of one of the cells that were made from a group. -/
def Loaded (vocabulary : Vocabulary) (source : List Element) (cells : List Cell) : Prop :=
  ∀ cell, cell ∈ cells → ∃ first, first ∈ flatten vocabulary source ∧ cell.origin = first.origin

instance (vocabulary : Vocabulary) (source : List Element) (cells : List Cell) :
    Decidable (Loaded vocabulary source cells) :=
  inferInstanceAs (Decidable (∀ cell, cell ∈ cells →
    ∃ first, first ∈ flatten vocabulary source ∧ cell.origin = first.origin))

instance (first second : Cell) : Decidable (first.NotBehind second) :=
  inferInstanceAs (Decidable (_ ∨ _))

theorem map_zipIdx_eq_self {children : List Element} {first : Nat} {place : Option Nat}
    (before : ∀ index, place = some index → index < first) (text : Text) :
    ((children.zipIdx first).map fun (child, index) =>
      if some index = place then { child.shell with data := text } else child) = children := by
  conv_rhs => rw [← List.zipIdx_map_fst first children]
  apply List.map_congr_left
  rintro ⟨child, index⟩ member
  have later : first ≤ index := List.le_snd_of_mem_zipIdx member
  have different : ¬ some index = place := by
    intro here
    have earlier := before index here.symm
    omega
  simp only [if_neg different]

/-- The text goes into the child at the index of the first one of its name. -/
theorem map_zipIdx_eq_putText (name text : Text) (children : List Element) (first : Nat) :
    ((children.zipIdx first).map fun (child, index) =>
      if some index = (children.findIdx? (Element.isNamed name)).map (· + first)
      then { child.shell with data := text } else child) = putText name text children := by
  induction children generalizing first with
  | nil => rfl
  | cons child rest ih =>
    rw [putText, List.findIdx?_cons, List.zipIdx_cons, List.map_cons]
    by_cases named : child.isNamed name = true
    · rw [if_pos named, if_pos named]
      simp only [Option.map_some, Nat.zero_add, ↓reduceIte]
      congr 1
      apply map_zipIdx_eq_self
      intro index here
      cases here
      exact Nat.lt_succ_self _
    · have shifted : ((rest.findIdx? (Element.isNamed name)).map (· + 1)).map (· + first)
          = (rest.findIdx? (Element.isNamed name)).map (· + (first + 1)) := by
        rw [Option.map_map]
        congr 1
        funext index
        exact (Nat.add_right_comm index 1 first).trans (Nat.add_assoc index first 1)
      have notHere : ¬ some first
          = (rest.findIdx? (Element.isNamed name)).map (· + (first + 1)) := by
        intro here
        obtain ⟨index, _, same⟩ := Option.map_eq_some_iff.1 here.symm
        omega
      rw [if_neg named, if_neg named, shifted, ih (first + 1)]
      simp only [if_neg notHere]

theorem childIndex?_eq_none_iff {name : Text} {run : Element} :
    run.childIndex? name = none ↔ run.child? name = none := by
  rw [Element.childIndex?, Element.child?, List.findIdx?_eq_none_iff, List.find?_eq_none]
  simp only [Bool.not_eq_true]

/-- A run is rebuilt at the place of its own text element by putting the text there. -/
theorem rebuildRun_eq_withText (vocabulary : Vocabulary) (run : Element) (text : Text) :
    rebuildRun vocabulary run (run.childIndex? vocabulary.text) text
      = withText vocabulary run text := by
  have put := map_zipIdx_eq_putText vocabulary.text text run.children 0
  simp only [Nat.add_zero, Option.map_id'] at put
  have added : newText vocabulary run text
      = if run.childIndex? vocabulary.text = none ∧ text ≠ []
        then [Element.ofData vocabulary.text text] else [] := by
    simp only [newText, childIndex?_eq_none_iff]
  rw [rebuildRun, withText, added, ← put]
  rfl

theorem newText_eq_nil_of_runText {vocabulary : Vocabulary} {run : Element}
    (filled : runText vocabulary run ≠ []) (text : Text) : newText vocabulary run text = [] := by
  apply if_neg
  rintro ⟨absent, _⟩
  exact filled (runText_of_childIndex?_eq_none vocabulary (childIndex?_eq_none_iff.2 absent))

theorem rebuiltChild?_eq {vocabulary : Vocabulary} {own : List Cell} {child : Element}
    (fromChild : ∀ cell, cell ∈ own → child.isNamed vocabulary.run = true ∧
      cell.origin.text = child.childIndex? vocabulary.text) :
    rebuiltChild? vocabulary own child = describedChild? vocabulary own child := by
  cases own with
  | nil => rw [rebuiltChild?, describedChild?, if_pos rfl]
  | cons head tail =>
    obtain ⟨isRun, place⟩ := fromChild head (by simp)
    rw [rebuiltChild?, describedChild?, if_pos isRun, if_neg (List.cons_ne_nil head tail), place,
      rebuildRun_eq_withText]

section

variable {vocabulary : Vocabulary} {source : List Element} {cells : List Cell}
  (loaded : Loaded vocabulary source cells)
include loaded

/-- The indices of a cell's origin are those of a paragraph of the group and of a run in it. -/
theorem Loaded.exists_run {cell : Cell} (member : cell ∈ cells) :
    ∃ paragraph run,
      (leadingParagraphs vocabulary source)[cell.origin.paragraph]? = some paragraph ∧
        paragraph.children[cell.origin.run]? = some run ∧
        run.isNamed vocabulary.run = true ∧
        cell.origin.text = run.childIndex? vocabulary.text := by
  obtain ⟨first, inFlatten, same⟩ := loaded cell member
  obtain ⟨paragraph, run, leads⟩ := placed_flatten vocabulary source first inFlatten
  rw [same]
  exact ⟨paragraph, run, leads.paragraph_at, leads.run_at, leads.isRun, leads.text_at⟩

theorem Loaded.regroup_eq_described :
    regroup vocabulary (leadingParagraphs vocabulary source) cells
      = described vocabulary (leadingParagraphs vocabulary source) cells := by
  apply List.map_congr_left
  rintro ⟨paragraph, number⟩ paragraphMember
  have paragraphAt := List.mk_mem_zipIdx_iff_getElem?.1 paragraphMember
  dsimp only
  rw [regroupParagraph, describedParagraph, survivors, List.map_filterMap]
  congr 1
  apply List.filterMap_congr
  rintro ⟨child, index⟩ childMember
  have childAt := List.mk_mem_zipIdx_iff_getElem?.1 childMember
  dsimp only
  rw [Option.map_map, ← rebuiltChild?_eq]
  · exact Option.map_id'
  · intro cell own
    obtain ⟨member, here, place⟩ := mem_inRun_inParagraph.1 own
    obtain ⟨paragraph', run, atParagraph, atRun, isRun, text⟩ := loaded.exists_run member
    rw [here, paragraphAt, Option.some.injEq] at atParagraph
    rw [place, ← atParagraph, childAt, Option.some.injEq] at atRun
    rw [atRun]
    exact ⟨isRun, text⟩

/-- Reading a sorted row stretch by stretch gives every paragraph as its own cells describe it. -/
theorem Loaded.rebuild_eq_described (sorted : cells.Pairwise Cell.NotBehind) :
    rebuild vocabulary source (leadingParagraphs vocabulary source).length cells
      = described vocabulary (leadingParagraphs vocabulary source) cells := by
  have leading : leadingParagraphs vocabulary source <+: source := List.takeWhile_prefix _
  have taken := List.prefix_iff_eq_take.1 leading
  rw [rebuild_eq_regroup vocabulary source _ leading.length_le cells sorted, ← taken,
    loaded.regroup_eq_described]
  intro cell member
  obtain ⟨paragraph, run, paragraphAt, runAt, _, _⟩ := loaded.exists_run member
  rw [← taken]
  exact ⟨paragraph, paragraphAt, (List.getElem?_eq_some_iff.1 runAt).1⟩

end

/-- A row that was loaded from any elements and edited in any way is rebuilt as its cells describe
it, as long as its cells keep origins of the loaded ones and the order of their runs. There are as
many paragraphs as were loaded, and every index of an origin finds its paragraph and its run. -/
theorem rebuild_describes (vocabulary : Vocabulary) (source : List Element) (cells : List Cell)
    (loaded : Loaded vocabulary source cells) (sorted : cells.Pairwise Cell.NotBehind) :
    let group := leadingParagraphs vocabulary source
    rebuild vocabulary source group.length cells = described vocabulary group cells ∧
      (rebuild vocabulary source group.length cells).length = group.length ∧
      ∀ cell, cell ∈ cells → cell.origin.paragraph < group.length ∧
        ∃ paragraph run, source[cell.origin.paragraph]? = some paragraph ∧
          paragraph.children[cell.origin.run]? = some run := by
  intro group
  have rebuilt := loaded.rebuild_eq_described sorted
  refine ⟨rebuilt, ?_, ?_⟩
  · rw [rebuilt, described, List.length_map, List.length_zipIdx]
  · intro cell member
    obtain ⟨paragraph, run, paragraphAt, runAt, _, _⟩ := loaded.exists_run member
    have inside := (List.getElem?_eq_some_iff.1 paragraphAt).1
    refine ⟨inside, paragraph, run, ?_, runAt⟩
    have split : group ++ source.dropWhile (isParagraph vocabulary) = source :=
      List.takeWhile_append_dropWhile
    rwa [← split, List.getElem?_append_left inside]

/-- The run `ab` loses its cells, the run beside it, which has no text element, gets a character,
and the second paragraph loses its only run. -/
theorem rebuild_describes_edited_cursor :
    let element (name : Text) (children : List Element) : Element := ⟨name, [], [], children, false⟩
    let text (data : Text) : Element := Element.ofData Vocabulary.standard.text data
    let run := element Vocabulary.standard.run
    let paragraph := element Vocabulary.standard.paragraph
    let mark := element ['m'] []
    let source := [paragraph [run [text ['a', 'b']], mark, run [mark]],
      paragraph [run [text ['c']]], mark, paragraph []]
    let cursor := Cursor.ofCells (flatten Vocabulary.standard source)
    let added := Cell.ofChar (some 'x') ⟨0, 2, none⟩
    let edited := (((cursor.removeAhead 2).forward 1).insertAfter added).forward 1 |>.removeAhead 1
    Loaded Vocabulary.standard source edited.cells ∧ edited.cells.Pairwise Cell.NotBehind ∧
      rebuild Vocabulary.standard source 2 edited.cells
        = [paragraph [mark, run [mark, text ['x']]], paragraph []] := by
  intro element text run paragraph mark source cursor added edited
  have loaded : Loaded Vocabulary.standard source edited.cells := by decide
  have sorted : edited.cells.Pairwise Cell.NotBehind := by decide
  exact ⟨loaded, sorted,
    (rebuild_describes Vocabulary.standard source edited.cells loaded sorted).1.trans (by decide)⟩

/-- Cells that stand in a row as those of the group do: in the order of their runs, the cells of one
run with one text element, and characters in runs only that hold text. -/
structure InPlace (vocabulary : Vocabulary) (source : List Element) (cells : List Cell) :
    Prop where
  loaded : Loaded vocabulary source cells
  sorted : cells.Pairwise Cell.NotBehind
  text_eq : ∀ first second, first ∈ cells → second ∈ cells →
    first.origin.paragraph = second.origin.paragraph → first.origin.run = second.origin.run →
    first.origin.text = second.origin.text
  exists_text : ∀ cell, cell ∈ cells → cell.char.isSome → ∃ paragraph run,
    (leadingParagraphs vocabulary source)[cell.origin.paragraph]? = some paragraph ∧
      paragraph.children[cell.origin.run]? = some run ∧ runText vocabulary run ≠ []

section

variable {vocabulary : Vocabulary} {source : List Element} {cells : List Cell}

/-- Cells in order that are akin to cells of the group are in place. -/
theorem inPlace_of_akin (ordered : Ordered cells)
    (akin : ∀ cell, cell ∈ cells → ∃ first, first ∈ flatten vocabulary source ∧ cell.Akin first) :
    InPlace vocabulary source cells := by
  have placed : Placed vocabulary (leadingParagraphs vocabulary source) cells := by
    intro cell member
    obtain ⟨first, inFlatten, same⟩ := akin cell member
    obtain ⟨paragraph, run, leads⟩ := placed_flatten vocabulary source first inFlatten
    exact ⟨paragraph, run, same.leadsTo leads⟩
  refine ⟨?_, ordered.sorted, ?_, ?_⟩
  · intro cell member
    obtain ⟨first, inFlatten, same⟩ := akin cell member
    exact ⟨first, inFlatten, same.origin⟩
  · intro first second firstMember secondMember sameParagraph sameRun
    obtain ⟨paragraph, run, left⟩ := placed first firstMember
    obtain ⟨paragraph', run', right⟩ := placed second secondMember
    rw [left.text_at, right.text_at, left.run_eq right sameParagraph sameRun]
  · intro cell member isSome
    obtain ⟨paragraph, run, leads⟩ := placed cell member
    exact ⟨paragraph, run, leads.paragraph_at, leads.run_at, leads.isSome_char_iff.1 isSome⟩

/-- No run needs a new text element for its cells. -/
theorem InPlace.newText_eq_nil (inPlace : InPlace vocabulary source cells) {number index : Nat}
    {paragraph run : Element}
    (paragraphAt : (leadingParagraphs vocabulary source)[number]? = some paragraph)
    (runAt : paragraph.children[index]? = some run) :
    newText vocabulary run (textOf (inRun index (inParagraph number cells))) = [] := by
  by_cases empty : textOf (inRun index (inParagraph number cells)) = []
  · exact if_neg fun added => added.2 empty
  · obtain ⟨cell, own, isSome⟩ := textOf_ne_nil_iff.1 empty
    obtain ⟨member, here, place⟩ := mem_inRun_inParagraph.1 own
    obtain ⟨paragraph', run', atParagraph, atRun, filled⟩ :=
      inPlace.exists_text cell member isSome
    rw [here, paragraphAt, Option.some.injEq] at atParagraph
    rw [place, ← atParagraph, runAt, Option.some.injEq] at atRun
    exact newText_eq_nil_of_runText (atRun ▸ filled) _

end

end MailMerge.Run
