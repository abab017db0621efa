import MailMerge.Proofs.Run.Frame

set_option autoImplicit false

namespace MailMerge.Run

open Markup (Element)

mutual

/-- An element without the data of the elements with a name, itself and all inside it. -/
def eraseData (name : Text) : Element → Element
  | ⟨own, attributes, data, children, selfClosing⟩ =>
    ⟨own, attributes, if own = name then [] else data, eraseDataAll name children, selfClosing⟩

def eraseDataAll (name : Text) : List Element → List Element
  | [] => []
  | element :: rest => eraseData name element :: eraseDataAll name rest

end

section

variable {name : Text}

theorem eraseDataAll_eq_map (elements : List Element) :
    eraseDataAll name elements = elements.map (eraseData name) := by
  induction elements with
  | nil => rfl
  | cons element rest ih => rw [eraseDataAll, ih, List.map_cons]

/-- Elements that differ in their children are the same when these are. -/
theorem eraseData_with_children (element : Element) {children others : List Element}
    (same : children.map (eraseData name) = others.map (eraseData name)) :
    eraseData name { element with children := children }
      = eraseData name { element with children := others } := by
  rw [eraseData, eraseData, eraseDataAll_eq_map, eraseDataAll_eq_map, same]

/-- Nothing is left of the data of an element with the name. -/
theorem eraseData_with_data {element : Element} (named : element.name = name) (data other : Text) :
    eraseData name { element with data := data }
      = eraseData name { element with data := other } := by
  rw [eraseData, eraseData, if_pos named, if_pos named]

theorem name_of_childIndex? {run child : Element} {index : Nat}
    (place : run.childIndex? name = some index) (childAt : run.children[index]? = some child) :
    child.name = name := by
  have named : child.isNamed name = true := List.find?_some (child?_of_childIndex? place childAt)
  exact beq_iff_eq.1 named

end

section

variable (vocabulary : Vocabulary)

/-- A run that is rebuilt with two texts is the same but for these texts. -/
theorem eraseData_rebuildRun {run : Element} {text other : Text}
    (fits : run.childIndex? vocabulary.text = none → text = [])
    (otherFits : run.childIndex? vocabulary.text = none → other = []) :
    eraseData vocabulary.text
        (rebuildRun vocabulary run (run.childIndex? vocabulary.text) text)
      = eraseData vocabulary.text
        (rebuildRun vocabulary run (run.childIndex? vocabulary.text) other) := by
  have children : ∀ index child, run.children[index]? = some child →
      eraseData vocabulary.text (if some index = run.childIndex? vocabulary.text
          then { child.shell with data := text } else child)
        = eraseData vocabulary.text (if some index = run.childIndex? vocabulary.text
          then { child.shell with data := other } else child) := by
    intro index child childAt
    split
    · rename_i place
      have named : child.name = vocabulary.text := name_of_childIndex? place.symm childAt
      have shellNamed : child.shell.name = vocabulary.text := named
      exact eraseData_with_data shellNamed text other
    · rfl
  have rebuilt : ((rebuildRun vocabulary run (run.childIndex? vocabulary.text) text).children).map
        (eraseData vocabulary.text)
      = ((rebuildRun vocabulary run (run.childIndex? vocabulary.text) other).children).map
        (eraseData vocabulary.text) := by
    rw [children_rebuildRun vocabulary fits, children_rebuildRun vocabulary otherFits, List.map_map,
      List.map_map]
    apply List.map_congr_left
    rintro ⟨child, index⟩ indexed
    exact children index child (List.mk_mem_zipIdx_iff_getElem?.1 indexed)
  exact eraseData_with_children run rebuilt

variable {vocabulary} {group : List Element} {cells others : List Cell}

/-- Two rows leave the same of a child but for its text if both or neither have a cell in it. -/
theorem map_eraseData_rebuiltChild? (placed : Placed vocabulary group cells)
    (othersPlaced : Placed vocabulary group others) {number index : Nat}
    {paragraph child : Element} (paragraphAt : group[number]? = some paragraph)
    (childAt : paragraph.children[index]? = some child)
    (same : inRun index (inParagraph number cells) = [] ↔
      inRun index (inParagraph number others) = []) :
    (rebuiltChild? vocabulary (inRun index (inParagraph number cells)) child).map
        (eraseData vocabulary.text)
      = (rebuiltChild? vocabulary (inRun index (inParagraph number others)) child).map
        (eraseData vocabulary.text) := by
  have cases := rebuiltChild?_cases placed paragraphAt childAt
  have otherCases := rebuiltChild?_cases othersPlaced paragraphAt childAt
  rcases cases with ⟨notRun, left⟩ | ⟨isRun, gone, left⟩ | ⟨isRun, kept, filled, left⟩
  · rcases otherCases with ⟨_, otherLeft⟩ | ⟨isRun, _⟩ | ⟨isRun, _⟩
    · rw [left, otherLeft]
    · exact absurd (notRun.symm.trans isRun) (by decide)
    · exact absurd (notRun.symm.trans isRun) (by decide)
  · rcases otherCases with ⟨notRun, _⟩ | ⟨_, _, otherLeft⟩ | ⟨_, otherKept, _⟩
    · exact absurd (notRun.symm.trans isRun) (by decide)
    · rw [left, otherLeft]
    · exact absurd (same.1 gone) otherKept
  · rcases otherCases with ⟨notRun, _⟩ | ⟨_, otherGone, _⟩ | ⟨_, _, otherFilled, otherLeft⟩
    · exact absurd (notRun.symm.trans isRun) (by decide)
    · exact absurd (same.2 otherGone) kept
    · have fits : ∀ text : Text, (text = [] ↔ runText vocabulary child = []) →
          child.childIndex? vocabulary.text = none → text = [] := fun text filled absent =>
        filled.2 (runText_of_childIndex?_eq_none vocabulary absent)
      rw [left, otherLeft, Option.map_some, Option.map_some,
        eraseData_rebuildRun vocabulary (fits _ filled) (fits _ otherFilled)]

/-- Two rows that leave cells in the same runs rebuild a group to the same but for its texts. -/
theorem map_eraseData_regroup (placed : Placed vocabulary group cells)
    (othersPlaced : Placed vocabulary group others)
    (same : ∀ number index, inRun index (inParagraph number cells) = [] ↔
      inRun index (inParagraph number others) = []) :
    (regroup vocabulary group cells).map (eraseData vocabulary.text)
      = (regroup vocabulary group others).map (eraseData vocabulary.text) := by
  rw [regroup, regroup, List.map_map, List.map_map]
  apply List.map_congr_left
  rintro ⟨paragraph, number⟩ indexed
  have paragraphAt := List.mk_mem_zipIdx_iff_getElem?.1 indexed
  apply eraseData_with_children paragraph
  rw [survivors, survivors, List.map_map, List.map_map, List.map_filterMap, List.map_filterMap]
  apply List.filterMap_congr
  rintro ⟨child, index⟩ indexed
  have left := map_eraseData_rebuiltChild? placed othersPlaced paragraphAt
    (List.mk_mem_zipIdx_iff_getElem?.1 indexed) (same number index)
  rw [Option.map_map, Option.map_map]
  exact left

end

end MailMerge.Run
