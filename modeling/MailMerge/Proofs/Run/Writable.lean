import MailMerge.Proofs.Markup.Writable
import MailMerge.Proofs.Run.Frame

set_option autoImplicit false

namespace MailMerge.Run

open Markup (Element AllWritable)

section

variable (vocabulary : Vocabulary) {run : Element}

theorem notMem_runText (children : AllWritable run.children) : '<' ∉ runText vocabulary run := by
  rw [runText]
  cases found : run.child? vocabulary.text with
  | none => exact List.not_mem_nil
  | some child => exact (children child (List.mem_of_find?_eq_some found)).here.data

/-- The text of a group is the text of its runs. -/
theorem exists_run_of_mem_flatten {elements : List Element} {c : Char}
    (member : some c ∈ (flatten vocabulary elements).map Cell.char) :
    ∃ paragraph run, paragraph ∈ elements ∧ run ∈ paragraph.children ∧
      c ∈ runText vocabulary run := by
  obtain ⟨cell, inRow, char⟩ := List.mem_map.1 member
  obtain ⟨⟨paragraph, number⟩, paragraphIndexed, inParagraph⟩ := List.mem_flatMap.1 inRow
  obtain ⟨⟨run, index⟩, runIndexed, inRun⟩ := List.mem_flatMap.1 inParagraph
  have paragraphMember : paragraph ∈ leadingParagraphs vocabulary elements :=
    List.mem_of_getElem? (List.mk_mem_zipIdx_iff_getElem?.1 paragraphIndexed)
  have runMember : run ∈ paragraph.children :=
    List.mem_of_getElem? (List.mk_mem_zipIdx_iff_getElem?.1 runIndexed)
  refine ⟨paragraph, run, (List.takeWhile_sublist _).subset paragraphMember, runMember, ?_⟩
  dsimp only at inRun
  split at inRun
  · have inText := List.mem_map_of_mem (f := Cell.char) inRun
    rw [map_char_cellsOfRun, char] at inText
    split at inText
    · simp at inText
    · simpa using inText
  · cases inRun

/-- A text element that gets another text is still read back. -/
theorem everywhere_writable_shell {child : Element} (writable : child.Writable) {text : Text}
    (plain : '<' ∉ text) (filled : text ≠ [] → child.data ≠ []) :
    ({ child.shell with data := text } : Element).Everywhere Element.Writable := by
  have single : child.selfClosing = true → text = [] := by
    intro closed
    by_contra given
    exact filled given (writable.single closed).1
  exact .intro ⟨writable.name, writable.attributes, plain, fun some => absurd rfl some,
    fun closed => ⟨single closed, rfl⟩⟩ (by simp [Element.shell])

/-- A run that gets another text is still read back. -/
theorem everywhere_writable_rebuildRun (writable : run.Everywhere Element.Writable) {text : Text}
    (plain : '<' ∉ text) (filled : text = [] ↔ runText vocabulary run = []) :
    (rebuildRun vocabulary run (run.childIndex? vocabulary.text) text).Everywhere
      Element.Writable := by
  have fits : run.childIndex? vocabulary.text = none → text = [] := fun absent =>
    filled.2 (runText_of_childIndex?_eq_none vocabulary absent)
  have children := children_rebuildRun vocabulary fits
  have inside : AllWritable
      (rebuildRun vocabulary run (run.childIndex? vocabulary.text) text).children := by
    intro child member
    rw [children] at member
    obtain ⟨⟨source, index⟩, indexed, rfl⟩ := List.mem_map.1 member
    have sourceAt := List.mk_mem_zipIdx_iff_getElem?.1 indexed
    have sourceWritable := writable.inside (List.mem_of_getElem? sourceAt)
    dsimp only
    split
    · rename_i place
      have sourceText := runText_of_childIndex?_eq_some vocabulary place.symm sourceAt
      refine everywhere_writable_shell sourceWritable.here plain fun given absent => ?_
      exact given (filled.2 (sourceText.trans absent))
    · exact sourceWritable
  have empty : run.children = [] →
      (rebuildRun vocabulary run (run.childIndex? vocabulary.text) text).children = [] := by
    intro none
    rw [children, none]
    rfl
  exact writable.withChildren inside empty

variable {vocabulary} {group : List Element} {cells : List Cell}

theorem everywhere_writable_regroupParagraph (placed : Placed vocabulary group cells)
    (plain : '<' ∉ textOf cells) {number : Nat} {paragraph : Element}
    (paragraphAt : group[number]? = some paragraph)
    (writable : paragraph.Everywhere Element.Writable) :
    (regroupParagraph vocabulary (inParagraph number cells) paragraph).Everywhere
      Element.Writable := by
  have inside : AllWritable
      (regroupParagraph vocabulary (inParagraph number cells) paragraph).children := by
    intro left member
    obtain ⟨⟨index, rebuilt⟩, survives, rfl⟩ := List.mem_map.1 member
    obtain ⟨⟨child, index⟩, indexed, given⟩ := List.mem_filterMap.1 survives
    obtain ⟨rebuilt, isLeft, same⟩ := Option.map_eq_some_iff.1 given
    cases same
    have childAt := List.mk_mem_zipIdx_iff_getElem?.1 indexed
    have childWritable := writable.inside (List.mem_of_getElem? childAt)
    have ownPlain : '<' ∉ textOf (inRun index (inParagraph number cells)) := by
      intro bracket
      apply plain
      exact (List.Sublist.filterMap _ ((List.filter_sublist).trans List.filter_sublist)).subset
        bracket
    rcases rebuiltChild?_cases placed paragraphAt childAt with
      ⟨_, kept⟩ | ⟨_, _, gone⟩ | ⟨_, _, filled, changed⟩
    · rw [kept] at isLeft
      cases isLeft
      exact childWritable
    · rw [gone] at isLeft
      cases isLeft
    · rw [changed] at isLeft
      cases isLeft
      exact everywhere_writable_rebuildRun vocabulary childWritable ownPlain filled
  have empty : paragraph.children = [] →
      (regroupParagraph vocabulary (inParagraph number cells) paragraph).children = [] := by
    intro none
    simp [regroupParagraph, survivors, none]
  exact writable.withChildren inside empty

theorem allWritable_regroup (placed : Placed vocabulary group cells) (plain : '<' ∉ textOf cells)
    (writable : AllWritable group) : AllWritable (regroup vocabulary group cells) := by
  intro element member
  obtain ⟨⟨paragraph, number⟩, indexed, rfl⟩ := List.mem_map.1 member
  have paragraphAt := List.mk_mem_zipIdx_iff_getElem?.1 indexed
  exact everywhere_writable_regroupParagraph placed plain paragraphAt
    (writable paragraph (List.mem_of_getElem? paragraphAt))

end

end MailMerge.Run
