import MailMerge.Proofs.Run.Content

set_option autoImplicit false

namespace MailMerge.Run

open Markup (Element)

/-- The first text elements of all runs of a group hold nothing but data. -/
def PlainTexts (vocabulary : Vocabulary) (group : List Element) : Prop :=
  ∀ paragraph, paragraph ∈ group → ∀ run, run ∈ paragraph.children →
    run.isNamed vocabulary.run = true →
    ∀ text, run.child? vocabulary.text = some text → text.children = []

instance (vocabulary : Vocabulary) (group : List Element) :
    Decidable (PlainTexts vocabulary group) :=
  inferInstanceAs (Decidable (∀ paragraph, paragraph ∈ group → ∀ run, run ∈ paragraph.children →
    run.isNamed vocabulary.run = true →
    ∀ text, text ∈ run.child? vocabulary.text → text.children = []))

/-- Of the cells of numbered items, those that carry the number of one item are its own. -/
theorem filter_flatMap_zipIdx {α : Type} (key : Cell → Nat) (cellsOf : α → Nat → List Cell)
    (own : ∀ item index cell, cell ∈ cellsOf item index → key cell = index)
    {items : List α} {index : Nat} {item : α} (here : items[index]? = some item) :
    (items.zipIdx.flatMap fun (item, index) => cellsOf item index).filter
      (fun cell => key cell = index) = cellsOf item index := by
  -- The induction is on the items, which are numbered from any number on.
  suffices general : ∀ first, items[index - first]? = some item → first ≤ index →
      ((items.zipIdx first).flatMap fun (item, index) => cellsOf item index).filter
        (fun cell => key cell = index) = cellsOf item index from
    general 0 (by simpa using here) (Nat.zero_le _)
  clear here
  induction items with
  | nil => simp
  | cons other rest ih =>
    intro first here bound
    rw [List.zipIdx_cons, List.flatMap_cons, List.filter_append]
    dsimp only
    by_cases reached : first = index
    · subst reached
      rw [Nat.sub_self, List.getElem?_cons_zero, Option.some.injEq] at here
      have behind : ((rest.zipIdx (first + 1)).flatMap fun (item, index) =>
          cellsOf item index).filter (fun cell => key cell = first) = [] := by
        rw [List.filter_eq_nil_iff]
        intro cell member
        obtain ⟨⟨later, number⟩, indexed, inside⟩ := List.mem_flatMap.1 member
        have after := List.le_snd_of_mem_zipIdx indexed
        have numbered := own later number cell inside
        simp only [decide_eq_true_eq]
        omega
      have all : (cellsOf other first).filter (fun cell => key cell = first)
          = cellsOf other first := by
        rw [List.filter_eq_self]
        intro cell member
        exact decide_eq_true (own other first cell member)
      rw [all, behind, List.append_nil, here]
    · have inRest : rest[index - (first + 1)]? = some item := by
        rwa [show index - first = index - (first + 1) + 1 by omega, List.getElem?_cons_succ] at here
      have none : (cellsOf other first).filter (fun cell => key cell = index) = [] := by
        rw [List.filter_eq_nil_iff]
        intro cell member
        have numbered := own other first cell member
        simp only [decide_eq_true_eq]
        omega
      rw [none, List.nil_append, ih (first + 1) inRest (by omega)]

section

variable (vocabulary : Vocabulary)

theorem inParagraph_flatten {group : List Element} {number : Nat} {paragraph : Element}
    (paragraphs : ∀ element, element ∈ group → isParagraph vocabulary element = true)
    (here : group[number]? = some paragraph) :
    inParagraph number (flatten vocabulary group)
      = cellsOfParagraph vocabulary number paragraph := by
  rw [inParagraph, flatten, leadingParagraphs_eq_self paragraphs]
  refine filter_flatMap_zipIdx (fun cell => cell.origin.paragraph)
    (fun paragraph index => cellsOfParagraph vocabulary index paragraph) ?_ here
  intro other index cell member
  obtain ⟨_, same, _⟩ := origin_of_mem_cellsOfParagraph member
  exact same

theorem inRun_cellsOfParagraph (number : Nat) {paragraph child : Element} {index : Nat}
    (here : paragraph.children[index]? = some child) :
    inRun index (cellsOfParagraph vocabulary number paragraph)
      = if child.isNamed vocabulary.run then cellsOfRun vocabulary number index child else [] := by
  refine filter_flatMap_zipIdx (fun cell => cell.origin.run)
    (fun child index => if child.isNamed vocabulary.run then
      cellsOfRun vocabulary number index child else []) ?_ here
  intro other index cell member
  split at member
  · obtain ⟨origin, _⟩ := origin_of_mem_cellsOfRun member
    rw [origin]
  · simp at member

theorem textOf_cellsOfRun (number index : Nat) (run : Element) :
    textOf (cellsOfRun vocabulary number index run) = runText vocabulary run := by
  have chars := map_char_cellsOfRun vocabulary number index run
  have image := congrArg (List.filterMap id) chars
  rw [List.filterMap_map] at image
  refine image.trans ?_
  split
  · rename_i empty
    rw [empty]
    rfl
  · rw [List.filterMap_map]
    exact List.filterMap_some

/-- A run with its own cells is rebuilt with its own text. -/
theorem rebuiltChild?_cellsOfRun (number index : Nat) (run : Element) :
    rebuiltChild? vocabulary (cellsOfRun vocabulary number index run) run
      = some (rebuildRun vocabulary run (run.childIndex? vocabulary.text)
        (runText vocabulary run)) := by
  have text := textOf_cellsOfRun vocabulary number index run
  cases own : cellsOfRun vocabulary number index run with
  | nil => exact absurd own (cellsOfRun_ne_nil vocabulary number index run)
  | cons head tail =>
    obtain ⟨origin, _⟩ := origin_of_mem_cellsOfRun (own ▸ List.mem_cons_self : head ∈ _)
    rw [own] at text
    rw [rebuiltChild?, origin, text]

/-- A child with its own text: a run is rebuilt, and any other child stays. -/
def withOwnText (child : Element) : Element :=
  if child.isNamed vocabulary.run then
    rebuildRun vocabulary child (child.childIndex? vocabulary.text) (runText vocabulary child)
  else child

theorem regroup_flatten {group : List Element}
    (paragraphs : ∀ element, element ∈ group → isParagraph vocabulary element = true) :
    regroup vocabulary group (flatten vocabulary group)
      = group.map fun paragraph =>
        { paragraph with children := paragraph.children.map (withOwnText vocabulary) } := by
  rw [regroup]
  conv_rhs => rw [← List.zipIdx_map_fst 0 group, List.map_map]
  apply List.map_congr_left
  rintro ⟨paragraph, number⟩ indexed
  have paragraphAt := List.mk_mem_zipIdx_iff_getElem?.1 indexed
  dsimp only [Function.comp_apply]
  rw [inParagraph_flatten vocabulary paragraphs paragraphAt, regroupParagraph, survivors,
    List.map_filterMap]
  congr 1
  conv_rhs => rw [← List.zipIdx_map_fst 0 paragraph.children, List.map_map]
  rw [← List.filterMap_eq_map]
  apply List.filterMap_congr
  rintro ⟨child, index⟩ childIndexed
  have childAt := List.mk_mem_zipIdx_iff_getElem?.1 childIndexed
  dsimp only [Function.comp_apply]
  rw [inRun_cellsOfParagraph vocabulary number childAt, Option.map_map, withOwnText]
  by_cases isRun : child.isNamed vocabulary.run = true
  · rw [if_pos isRun, if_pos isRun, rebuiltChild?_cellsOfRun]
    rfl
  · rw [if_neg isRun, if_neg isRun, rebuiltChild?, if_neg isRun]
    rfl

theorem map_eq_self_iff {α : Type} {f : α → α} {items : List α} :
    items.map f = items ↔ ∀ item, item ∈ items → f item = item := by
  conv_lhs => rhs; rw [← List.map_id items]
  exact List.map_inj_left

theorem with_children_eq_self_iff (element : Element) (children : List Element) :
    { element with children := children } = element ↔ children = element.children := by
  cases element
  simp

theorem with_data_eq_self_iff (element : Element) :
    { element.shell with data := element.data } = element ↔ element.children = [] := by
  cases element
  simp [Element.shell, eq_comm]

/-- A run with its own text is the same run exactly if its text element holds nothing but data. -/
theorem rebuildRun_runText_eq_self_iff (run : Element) :
    rebuildRun vocabulary run (run.childIndex? vocabulary.text) (runText vocabulary run) = run ↔
      ∀ text, run.child? vocabulary.text = some text → text.children = [] := by
  have fits : run.childIndex? vocabulary.text = none → runText vocabulary run = [] :=
    runText_of_childIndex?_eq_none vocabulary
  have children := children_rebuildRun vocabulary fits
  refine (with_children_eq_self_iff run _).trans ?_
  refine Iff.trans (Eq.congr_left children) ?_
  conv_lhs => rhs; rw [← List.zipIdx_map_fst 0 run.children]
  rw [List.map_inj_left]
  constructor
  · intro same text first
    cases place : run.childIndex? vocabulary.text with
    | none =>
      rw [Element.childIndex?, List.findIdx?_eq_none_iff] at place
      have named := List.find?_some first
      rw [place text (List.mem_of_find?_eq_some first)] at named
      cases named
    | some index =>
      obtain ⟨inside, _, _⟩ := List.findIdx?_eq_some_iff_getElem.1 place
      have here := List.getElem?_eq_getElem inside
      have own := same (run.children[index], index) (List.mk_mem_zipIdx_iff_getElem?.2 here)
      rw [place, if_pos rfl, runText_of_childIndex?_eq_some vocabulary place here,
        with_data_eq_self_iff] at own
      rw [child?_of_childIndex? place here, Option.some.injEq] at first
      rwa [first] at own
  · rintro plain ⟨child, index⟩ indexed
    have childAt := List.mk_mem_zipIdx_iff_getElem?.1 indexed
    dsimp only
    split
    · rename_i place
      rw [runText_of_childIndex?_eq_some vocabulary place.symm childAt, with_data_eq_self_iff]
      exact plain child (child?_of_childIndex? place.symm childAt)
    · rfl

theorem withOwnText_eq_self_iff (child : Element) :
    withOwnText vocabulary child = child ↔ (child.isNamed vocabulary.run = true →
      ∀ text, child.child? vocabulary.text = some text → text.children = []) := by
  unfold withOwnText
  by_cases isRun : child.isNamed vocabulary.run = true
  · rw [if_pos isRun, rebuildRun_runText_eq_self_iff]
    exact ⟨fun plain _ => plain, fun plain => plain isRun⟩
  · rw [if_neg isRun]
    exact ⟨fun _ named => absurd named isRun, fun _ => rfl⟩

/-- A group is rebuilt from its own row as it was exactly if the text elements of its runs hold
nothing but data. -/
theorem rebuild_flatten_eq_self_iff {group : List Element}
    (paragraphs : ∀ element, element ∈ group → isParagraph vocabulary element = true) :
    rebuild vocabulary group group.length (flatten vocabulary group) = group ↔
      PlainTexts vocabulary group := by
  rw [rebuild_length_eq_regroup vocabulary group (ordered_flatten vocabulary group)
      (placed_flatten_of_paragraphs paragraphs),
    regroup_flatten vocabulary paragraphs, map_eq_self_iff]
  unfold PlainTexts
  simp only [with_children_eq_self_iff, map_eq_self_iff, withOwnText_eq_self_iff]

end

end MailMerge.Run
