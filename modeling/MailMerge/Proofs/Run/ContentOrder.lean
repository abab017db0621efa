import MailMerge.Proofs.Run.Unedited
import Mathlib.Data.List.Lex

set_option autoImplicit false

namespace MailMerge.Run

open Markup (Element)

/-- The path of indices to the text element that a cell came from, or to a run without one. -/
def Cell.path (cell : Cell) : List Nat :=
  cell.origin.paragraph :: cell.origin.run :: cell.origin.text.toList

/-- A child of a run that is neither its first text element nor its properties. The numbers are
those of the paragraph, of the run in it and of the child in the run. -/
structure IsContent (vocabulary : Vocabulary) (group : List Element) (number index place : Nat)
    (run child : Element) : Prop where
  run_at : ∃ paragraph, group[number]? = some paragraph ∧ paragraph.children[index]? = some run
  isRun : run.isNamed vocabulary.run = true
  child_at : run.children[place]? = some child
  notText : run.childIndex? vocabulary.text ≠ some place
  notProperties : child.isNamed vocabulary.properties = false

theorem cons_cons_lt_iff {number index other place : Nat} {below below' : List Nat} :
    number :: index :: below < other :: place :: below' ↔
      number < other ∨ number = other ∧ (index < place ∨ index = place ∧ below < below') := by
  rw [List.cons_lt_cons_iff, List.cons_lt_cons_iff]

/-- Of a row cut in two, no cell of the front is behind a cell of the rest. -/
theorem Ordered.notBehind {front behind : List Cell} (ordered : Ordered (front ++ behind))
    {first second : Cell} (inFront : first ∈ front) (inBehind : second ∈ behind) :
    first.NotBehind second :=
  ((List.pairwise_append.1 ordered).2.2 first inFront second inBehind).notBehind

theorem Ordered.notBehind_getLast {cells : List Cell} (ordered : Ordered cells) {cell last : Cell}
    (member : cell ∈ cells) (ends : cells.getLast? = some last) : cell.NotBehind last := by
  obtain ⟨front, rfl⟩ := List.getLast?_eq_some_iff.1 ends
  rcases List.mem_append.1 member with inFront | own
  · exact ordered.notBehind inFront List.mem_cons_self
  · exact .of_origin_eq (congrArg Cell.origin (List.mem_singleton.1 own))

theorem Ordered.notBehind_of_head {cells : List Cell} (ordered : Ordered cells) {first cell : Cell}
    (begins : cells.head? = some first) (member : cell ∈ cells) : first.NotBehind cell := by
  obtain ⟨rest, rfl⟩ := List.head?_eq_some_iff.1 begins
  rcases List.mem_cons.1 member with rfl | inRest
  · exact .of_origin_eq rfl
  · rw [← List.singleton_append] at ordered
    exact ordered.notBehind List.mem_cons_self inRest

section

variable {vocabulary : Vocabulary} {group : List Element}

/-- A cell with a character came from a text element. -/
theorem Cell.LeadsTo.exists_text {cell : Cell} {paragraph run : Element}
    (leads : cell.LeadsTo vocabulary group paragraph run) (isSome : cell.char.isSome) :
    ∃ place, run.childIndex? vocabulary.text = some place ∧
      cell.path = [cell.origin.paragraph, cell.origin.run, place] := by
  cases here : run.childIndex? vocabulary.text with
  | none =>
    exact absurd (runText_of_childIndex?_eq_none vocabulary here)
      (leads.isSome_char_iff.1 isSome)
  | some place =>
    refine ⟨place, rfl, ?_⟩
    rw [Cell.path, leads.text_at, here]
    rfl

theorem Cell.NotBehind.path_le {first second : Cell} {paragraph run paragraph' run' : Element}
    (notBehind : first.NotBehind second) (left : first.LeadsTo vocabulary group paragraph run)
    (right : second.LeadsTo vocabulary group paragraph' run') : first.path ≤ second.path := by
  by_cases same : first.origin.paragraph = second.origin.paragraph ∧
      first.origin.run = second.origin.run
  · have texts : first.origin.text = second.origin.text := by
      rw [left.text_at, right.text_at, left.run_eq right same.1 same.2]
    rw [Cell.path, Cell.path, same.1, same.2, texts]
  · apply le_of_lt
    unfold Cell.NotBehind at notBehind
    rw [Cell.path, Cell.path, cons_cons_lt_iff]
    omega

theorem Placed.path_le {cells : List Cell} (placed : Placed vocabulary group cells)
    {first second : Cell} (firstMember : first ∈ cells) (secondMember : second ∈ cells)
    (notBehind : first.NotBehind second) : first.path ≤ second.path := by
  obtain ⟨_, _, left⟩ := placed first firstMember
  obtain ⟨_, _, right⟩ := placed second secondMember
  exact notBehind.path_le left right

theorem flags_of_mem_cellsOfText {origin : Origin} {opens closes : Bool} {text : Text}
    {cell : Cell} (member : cell ∈ cellsOfText origin opens closes text) :
    (cell.opensRun = true → opens = true) ∧ (cell.closesRun = true → closes = true) := by
  induction text generalizing opens with
  | nil => simp [cellsOfText] at member
  | cons c rest ih =>
    cases rest with
    | nil =>
      simp only [cellsOfText, List.mem_singleton] at member
      rw [member]
      exact ⟨id, id⟩
    | cons d rest =>
      simp only [cellsOfText, List.mem_cons] at member
      rcases member with rfl | member
      · exact ⟨id, by simp⟩
      · have later : cell ∈ cellsOfText origin false closes (d :: rest) := member
        exact ⟨fun opensRun => absurd ((ih later).1 opensRun) (by simp), (ih later).2⟩

/-- What the two flags of a cell say about the children around the text of its run. -/
theorem flags_of_mem_cellsOfRun {number index textPlace : Nat} {run : Element}
    (textAt : run.childIndex? vocabulary.text = some textPlace) {cell : Cell}
    (member : cell ∈ cellsOfRun vocabulary number index run) :
    (cell.opensRun = true →
        ∀ child, child ∈ run.children.take textPlace → child.isNamed vocabulary.properties = true) ∧
      (cell.closesRun = true → textPlace + 1 = run.children.length) := by
  have inside : textPlace < run.children.length := by
    obtain ⟨inside, _⟩ := List.findIdx?_eq_some_iff_getElem.1 textAt
    exact inside
  unfold cellsOfRun at member
  split at member
  · rw [List.mem_singleton] at member
    rw [member]
    simp [Cell.ofChar]
  · obtain ⟨opens, closes⟩ := flags_of_mem_cellsOfText member
    rw [textAt, Option.getD_some] at opens closes
    constructor
    · intro opensRun
      exact List.all_eq_true.1 (opens opensRun)
    · intro closesRun
      have length := of_decide_eq_true (closes closesRun)
      rw [List.length_take] at length
      omega

/-- Only a character stands at an end of a run. -/
theorem isSome_char_of_mem_flatten {cell : Cell} (member : cell ∈ flatten vocabulary group)
    (flag : cell.opensRun = true ∨ cell.closesRun = true) : cell.char.isSome := by
  obtain ⟨⟨paragraph, number⟩, _, inside⟩ := List.mem_flatMap.1 member
  obtain ⟨run, _, _, _, inRun⟩ := origin_of_mem_cellsOfParagraph inside
  unfold cellsOfRun at inRun
  split at inRun
  · rw [List.mem_singleton] at inRun
    rw [inRun] at flag
    simp [Cell.ofChar] at flag
  · exact (origin_of_mem_cellsOfText inRun).2

namespace IsContent

variable {number index place : Nat} {run child : Element}
  (content : IsContent vocabulary group number index place run child)
include content

/-- A cell in the run of some content leads there. -/
theorem leadsTo {cells : List Cell} (placed : Placed vocabulary group cells) {cell : Cell}
    (member : cell ∈ cells) (here : cell.origin.paragraph = number ∧ cell.origin.run = index) :
    ∃ paragraph, cell.LeadsTo vocabulary group paragraph run := by
  obtain ⟨paragraph, paragraphAt, runAt⟩ := content.run_at
  exact ⟨paragraph, placed.leadsTo paragraphAt runAt (mem_inRun_inParagraph.2 ⟨member, here⟩)⟩

theorem ne_path {cells : List Cell} (placed : Placed vocabulary group cells) {cell : Cell}
    (member : cell ∈ cells) : [number, index, place] ≠ cell.path := by
  intro same
  rw [Cell.path, List.cons.injEq, List.cons.injEq] at same
  obtain ⟨paragraphs, runs, texts⟩ := same
  obtain ⟨_, leads⟩ := content.leadsTo placed member ⟨paragraphs.symm, runs.symm⟩
  cases text : cell.origin.text with
  | none => simp [text] at texts
  | some own =>
    have own_eq : place = own := by simpa [text] using texts
    apply content.notText
    rw [← leads.text_at, text, own_eq]

variable (paragraphs : ∀ element, element ∈ group → isParagraph vocabulary element = true)
include paragraphs

theorem inRun_flatten : inRun index (inParagraph number (flatten vocabulary group))
    = cellsOfRun vocabulary number index run := by
  obtain ⟨paragraph, paragraphAt, runAt⟩ := content.run_at
  rw [inParagraph_flatten vocabulary paragraphs paragraphAt,
    inRun_cellsOfParagraph vocabulary number runAt, if_pos content.isRun]

/-- The run of the content has a cell in the row of its group. -/
theorem exists_cell : ∃ cell, cell ∈ flatten vocabulary group ∧
    cell.origin.paragraph = number ∧ cell.origin.run = index := by
  obtain ⟨cell, member⟩ :=
    List.exists_mem_of_ne_nil _ (cellsOfRun_ne_nil vocabulary number index run)
  rw [← content.inRun_flatten paragraphs] at member
  exact ⟨cell, mem_inRun_inParagraph.1 member⟩

/-- Content in the run of a cell that opens it stands behind its text, and in front of it in the run
of a cell that closes it. -/
theorem flags {cell : Cell} (member : cell ∈ flatten vocabulary group)
    (here : cell.origin.paragraph = number ∧ cell.origin.run = index) {textPlace : Nat}
    (textAt : run.childIndex? vocabulary.text = some textPlace) :
    (cell.opensRun = true → textPlace < place) ∧ (cell.closesRun = true → place < textPlace) := by
  have inOwn := mem_inRun_inParagraph.2 ⟨member, here⟩
  rw [content.inRun_flatten paragraphs] at inOwn
  obtain ⟨opens, closes⟩ := flags_of_mem_cellsOfRun textAt inOwn
  have other : place ≠ textPlace := fun same => content.notText (same ▸ textAt)
  constructor
  · intro opensRun
    by_contra inFront
    have taken : child ∈ run.children.take textPlace := by
      apply List.mem_of_getElem? (i := place)
      rw [List.getElem?_take_of_lt (by omega), content.child_at]
    have named := opens opensRun child taken
    rw [content.notProperties] at named
    cases named
  · intro closesRun
    have length := closes closesRun
    obtain ⟨inside, _⟩ := List.getElem?_eq_some_iff.1 content.child_at
    omega

/-- Content stands nowhere between a cell that closes its run and a cell that opens a later one, if
its own run is not between theirs. -/
theorem not_between {first second own : Cell} (firstMember : first ∈ flatten vocabulary group)
    (secondMember : second ∈ flatten vocabulary group) (closes : first.closesRun = true)
    (opens : second.opensRun = true)
    (here : own.origin.paragraph = number ∧ own.origin.run = index)
    (outside : own.NotBehind first ∨ second.NotBehind own) :
    ¬ (first.path < [number, index, place] ∧ [number, index, place] < second.path) := by
  have placed := placed_flatten_of_paragraphs paragraphs
  obtain ⟨_, firstRun, firstLeads⟩ := placed first firstMember
  obtain ⟨_, secondRun, secondLeads⟩ := placed second secondMember
  obtain ⟨firstPlace, firstText, firstPath⟩ := firstLeads.exists_text
    (isSome_char_of_mem_flatten firstMember (Or.inr closes))
  obtain ⟨secondPlace, secondText, secondPath⟩ := secondLeads.exists_text
    (isSome_char_of_mem_flatten secondMember (Or.inl opens))
  rw [firstPath, secondPath, cons_cons_lt_iff, cons_cons_lt_iff]
  simp only [List.cons_lt_cons_iff, List.not_lt_nil, and_false, or_false]
  rintro ⟨behindFirst, beforeSecond⟩
  unfold Cell.NotBehind at outside
  rcases outside with atFirst | atSecond
  · have same : first.origin.paragraph = number ∧ first.origin.run = index := by omega
    obtain ⟨_, leads⟩ := content.leadsTo placed firstMember same
    rw [firstLeads.run_eq leads rfl rfl] at firstText
    have inFront := (content.flags paragraphs firstMember same firstText).2 closes
    omega
  · have same : second.origin.paragraph = number ∧ second.origin.run = index := by omega
    obtain ⟨_, leads⟩ := content.leadsTo placed secondMember same
    rw [secondLeads.run_eq leads rfl rfl] at secondText
    have behind := (content.flags paragraphs secondMember same secondText).1 opens
    omega

end IsContent

end

section

variable (vocabulary : Vocabulary) (group : List Element) (cells : List Cell)

/-- Where a path into a group leads when the group is rebuilt. -/
def newPath : List Nat → List Nat
  | number :: index :: below =>
    number :: newIndex (survivorsOf vocabulary group cells number) index :: below
  | path => path

/-- The text of those of some cells that are in one run. -/
def runTextIn (origin : Origin) (cells : List Cell) : Text :=
  textOf (inRun origin.run (inParagraph origin.paragraph cells))

theorem runTextIn_append (origin : Origin) (first second : List Cell) :
    runTextIn origin (first ++ second) = runTextIn origin first ++ runTextIn origin second := by
  simp only [runTextIn, inRun, inParagraph, textOf, List.filter_append, List.filterMap_append]

variable {vocabulary group cells} (placed : Placed vocabulary group cells)
include placed

/-- Rebuilding keeps a path into a run with a cell in front of every later path. -/
theorem newPath_lt_newPath {own : Cell} (member : own ∈ cells) {number index : Nat}
    {below below' : List Nat}
    (earlier : own.origin.paragraph :: own.origin.run :: below < number :: index :: below') :
    newPath vocabulary group cells (own.origin.paragraph :: own.origin.run :: below)
      < newPath vocabulary group cells (number :: index :: below') := by
  obtain ⟨paragraph, run, leads⟩ := placed own member
  have left := mem_survivorsOf vocabulary placed member leads
  have sorted := sorted_survivorsOf vocabulary group cells own.origin.paragraph
  rw [cons_cons_lt_iff] at earlier
  rw [newPath, newPath, cons_cons_lt_iff]
  rcases earlier with earlier | ⟨rfl, earlier | ⟨rfl, earlier⟩⟩
  · exact Or.inl earlier
  · exact Or.inr ⟨rfl, Or.inl ((newIndex_lt_newIndex_iff sorted left index).2 earlier)⟩
  · exact Or.inr ⟨rfl, Or.inr ⟨rfl, earlier⟩⟩

/-- Every run with a cell stands at its new path, rebuilt with the text of its cells. -/
theorem exists_run_at_newRun {cell : Cell} {paragraph run : Element} (member : cell ∈ cells)
    (leads : cell.LeadsTo vocabulary group paragraph run) :
    ∃ rebuilt, (regroup vocabulary group cells)[cell.origin.paragraph]? = some rebuilt ∧
      rebuilt.children[newRun vocabulary group cells cell.origin]?
        = some (rebuildRun vocabulary run (run.childIndex? vocabulary.text)
          (runTextIn cell.origin cells)) ∧
      (run.childIndex? vocabulary.text = none → runTextIn cell.origin cells = []) := by
  refine ⟨_, getElem?_regroup vocabulary leads.paragraph_at cells,
    getElem?_newIndex (sorted_survivorsOf vocabulary group cells cell.origin.paragraph)
      (mem_survivorsOf vocabulary placed member leads), ?_⟩
  intro absent
  by_contra filled
  obtain ⟨other, inside, isSome⟩ := textOf_ne_nil_iff.1 filled
  have otherLeads := placed.leadsTo leads.paragraph_at leads.run_at inside
  exact otherLeads.isSome_char_iff.1 isSome (runText_of_childIndex?_eq_none vocabulary absent)

omit placed in
/-- A rebuilt run keeps its children where they are, the text element with its new text. -/
theorem getElem?_children_rebuildRun {run : Element} {text : Text}
    (fits : run.childIndex? vocabulary.text = none → text = []) (place : Nat) :
    (rebuildRun vocabulary run (run.childIndex? vocabulary.text) text).children[place]?
      = (run.children[place]?).map fun child =>
        if some place = run.childIndex? vocabulary.text then { child.shell with data := text }
        else child := by
  rw [children_rebuildRun vocabulary fits, List.getElem?_map, List.getElem?_zipIdx, Option.map_map,
    Nat.zero_add]
  rfl

end

end MailMerge.Run
