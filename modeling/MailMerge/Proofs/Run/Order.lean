import MailMerge.Run.Cell

set_option autoImplicit false

namespace MailMerge.Run

open Markup (Element)

/-- One cell comes from an earlier run than another, or both are characters of one run. -/
def Cell.Precedes (first second : Cell) : Prop :=
  first.origin.paragraph < second.origin.paragraph ∨
    first.origin.paragraph = second.origin.paragraph ∧
      (first.origin.run < second.origin.run ∨
        first.origin.run = second.origin.run ∧ first.char.isSome ∧ second.char.isSome)

/-- A cell comes from the run of another one, or from an earlier run. -/
def Cell.NotBehind (first second : Cell) : Prop :=
  first.origin.paragraph < second.origin.paragraph ∨
    first.origin.paragraph = second.origin.paragraph ∧ first.origin.run ≤ second.origin.run

/-- Every cell precedes all cells behind it. -/
def Ordered (cells : List Cell) : Prop := cells.Pairwise Cell.Precedes

/-- A cell leads back to a run of a group of paragraphs. -/
structure Cell.LeadsTo (vocabulary : Vocabulary) (group : List Element) (cell : Cell)
    (paragraph run : Element) : Prop where
  paragraph_at : group[cell.origin.paragraph]? = some paragraph
  run_at : paragraph.children[cell.origin.run]? = some run
  isRun : run.isNamed vocabulary.run = true
  text_at : cell.origin.text = run.childIndex? vocabulary.text
  isSome_char_iff : cell.char.isSome ↔ runText vocabulary run ≠ []

/-- Every cell leads back to a run of the group. -/
def Placed (vocabulary : Vocabulary) (group : List Element) (cells : List Cell) : Prop :=
  ∀ cell, cell ∈ cells → ∃ paragraph run, cell.LeadsTo vocabulary group paragraph run

theorem Cell.LeadsTo.run_eq {vocabulary : Vocabulary} {group : List Element}
    {first second : Cell} {paragraph run paragraph' run' : Element}
    (left : first.LeadsTo vocabulary group paragraph run)
    (right : second.LeadsTo vocabulary group paragraph' run')
    (sameParagraph : first.origin.paragraph = second.origin.paragraph)
    (sameRun : first.origin.run = second.origin.run) : run = run' := by
  have paragraphs := left.paragraph_at
  rw [sameParagraph, right.paragraph_at, Option.some.injEq] at paragraphs
  have runs := left.run_at
  rw [sameRun, ← paragraphs, right.run_at, Option.some.injEq] at runs
  exact runs.symm

/-- Two cells that order and run do not tell apart. -/
structure Cell.Akin (first second : Cell) : Prop where
  origin : first.origin = second.origin
  isSome_char : first.char.isSome = second.char.isSome

theorem Cell.Akin.refl (cell : Cell) : cell.Akin cell := ⟨rfl, rfl⟩

theorem Cell.Akin.trans {first second third : Cell} (left : first.Akin second)
    (right : second.Akin third) : first.Akin third :=
  ⟨left.origin.trans right.origin, left.isSome_char.trans right.isSome_char⟩

theorem Cell.Akin.precedes {first second first' second' : Cell} (left : first.Akin first')
    (right : second.Akin second') (precedes : first'.Precedes second') :
    first.Precedes second := by
  unfold Cell.Precedes at precedes ⊢
  rwa [left.origin, left.isSome_char, right.origin, right.isSome_char]

theorem Cell.Akin.leadsTo {first second : Cell} (akin : first.Akin second)
    {vocabulary : Vocabulary} {group : List Element} {paragraph run : Element}
    (leads : second.LeadsTo vocabulary group paragraph run) :
    first.LeadsTo vocabulary group paragraph run := by
  obtain ⟨paragraphAt, runAt, isRun, text_at, isSome_char_iff⟩ := leads
  rw [← akin.origin] at paragraphAt runAt text_at
  rw [← akin.isSome_char] at isSome_char_iff
  exact ⟨paragraphAt, runAt, isRun, text_at, isSome_char_iff⟩

theorem Cell.precedes_of_same_run {first second : Cell} (same : first.origin = second.origin)
    (firstChar : first.char.isSome) (secondChar : second.char.isSome) :
    first.Precedes second := by
  unfold Cell.Precedes
  rw [same]
  exact Or.inr ⟨rfl, Or.inr ⟨rfl, firstChar, secondChar⟩⟩

theorem Cell.Precedes.notBehind {first second : Cell} (precedes : first.Precedes second) :
    first.NotBehind second := by
  unfold Cell.Precedes at precedes
  unfold Cell.NotBehind
  omega

theorem Cell.NotBehind.of_origin_eq {first second : Cell} (same : first.origin = second.origin) :
    first.NotBehind second := by
  rw [Cell.NotBehind, same]
  exact Or.inr ⟨rfl, Nat.le_refl _⟩

theorem Cell.NotBehind.trans {first second third : Cell} (left : first.NotBehind second)
    (right : second.NotBehind third) : first.NotBehind third := by
  unfold Cell.NotBehind at left right ⊢
  omega

theorem Ordered.sorted {cells : List Cell} (ordered : Ordered cells) :
    cells.Pairwise Cell.NotBehind :=
  ordered.imp Cell.Precedes.notBehind

/-- Any number of characters of a run can stand where one of them stands. -/
theorem Ordered.spread {front written after : List Cell} {template : Cell}
    (ordered : Ordered (front ++ template :: after)) (isSome : template.char.isSome)
    (akin : ∀ cell, cell ∈ written → cell.Akin template) : Ordered (front ++ written ++ after) := by
  obtain ⟨frontOrdered, behindOrdered, across⟩ := List.pairwise_append.1 ordered
  obtain ⟨templateFirst, afterOrdered⟩ := List.pairwise_cons.1 behindOrdered
  have writtenOrdered : Ordered written := by
    apply List.Pairwise.imp_of_mem _ (List.pairwise_of_forall_mem_list fun _ _ _ _ => trivial)
    intro first second firstMember secondMember _
    exact (akin first firstMember).precedes (akin second secondMember)
      (Cell.precedes_of_same_run rfl isSome isSome)
  rw [List.append_assoc]
  refine List.pairwise_append.2 ⟨frontOrdered, List.pairwise_append.2
    ⟨writtenOrdered, afterOrdered, ?_⟩, ?_⟩
  · intro first firstMember second secondMember
    exact (akin first firstMember).precedes (.refl second) (templateFirst second secondMember)
  · intro first firstMember second secondMember
    rcases List.mem_append.1 secondMember with inWritten | inAfter
    · exact (Cell.Akin.refl first).precedes (akin second inWritten)
        (across first firstMember template (by simp))
    · exact across first firstMember second (List.mem_cons_of_mem _ inAfter)

theorem map_char_cellsOfText (origin : Origin) (opens closes : Bool) (text : Text) :
    (cellsOfText origin opens closes text).map Cell.char = text.map some := by
  induction text generalizing opens with
  | nil => rfl
  | cons c rest ih =>
    cases rest with
    | nil => rfl
    | cons d rest => simpa [cellsOfText] using ih false

theorem origin_of_mem_cellsOfText {origin : Origin} {opens closes : Bool} {text : Text}
    {cell : Cell} (member : cell ∈ cellsOfText origin opens closes text) :
    cell.origin = origin ∧ cell.char.isSome := by
  induction text generalizing opens with
  | nil => simp [cellsOfText] at member
  | cons c rest ih =>
    cases rest with
    | nil =>
      simp only [cellsOfText, List.mem_singleton] at member
      rw [member]
      exact ⟨rfl, rfl⟩
    | cons d rest =>
      simp only [cellsOfText, List.mem_cons] at member
      rcases member with rfl | member
      · exact ⟨rfl, rfl⟩
      · have later : cell ∈ cellsOfText origin false closes (d :: rest) := member
        exact ih later

/-- The characters of a run's cells: those of its text, or none for the run as a whole. -/
theorem map_char_cellsOfRun (vocabulary : Vocabulary) (paragraph index : Nat) (run : Element) :
    (cellsOfRun vocabulary paragraph index run).map Cell.char =
      if runText vocabulary run = [] then [none] else (runText vocabulary run).map some := by
  unfold cellsOfRun
  split
  · rename_i empty
    rw [if_pos empty]
    rfl
  · rename_i nonempty
    rw [if_neg nonempty, map_char_cellsOfText]

theorem cellsOfRun_ne_nil (vocabulary : Vocabulary) (paragraph index : Nat) (run : Element) :
    cellsOfRun vocabulary paragraph index run ≠ [] := by
  intro empty
  have chars := map_char_cellsOfRun vocabulary paragraph index run
  rw [empty] at chars
  split at chars
  · cases chars
  · rename_i filled
    exact filled (List.map_eq_nil_iff.1 chars.symm)

theorem origin_of_mem_cellsOfRun {vocabulary : Vocabulary} {paragraph index : Nat} {run : Element}
    {cell : Cell} (member : cell ∈ cellsOfRun vocabulary paragraph index run) :
    cell.origin = ⟨paragraph, index, run.childIndex? vocabulary.text⟩ ∧
      (cell.char.isSome ↔ runText vocabulary run ≠ []) := by
  unfold cellsOfRun at member
  split at member
  · rename_i empty
    rw [List.mem_singleton] at member
    rw [member, empty]
    exact ⟨rfl, by simp [Cell.ofChar]⟩
  · rename_i _ nonempty
    obtain ⟨origin, isSome⟩ := origin_of_mem_cellsOfText member
    exact ⟨origin, fun _ => nonempty, fun _ => isSome⟩

theorem ordered_cellsOfRun (vocabulary : Vocabulary) (paragraph index : Nat) (run : Element) :
    Ordered (cellsOfRun vocabulary paragraph index run) := by
  unfold cellsOfRun
  split
  · exact List.pairwise_singleton _ _
  · apply List.Pairwise.imp_of_mem _ (List.pairwise_of_forall_mem_list fun _ _ _ _ => trivial)
    intro first second firstMember secondMember _
    obtain ⟨firstOrigin, firstChar⟩ := origin_of_mem_cellsOfText firstMember
    obtain ⟨secondOrigin, secondChar⟩ := origin_of_mem_cellsOfText secondMember
    exact Cell.precedes_of_same_run (firstOrigin.trans secondOrigin.symm) firstChar secondChar

theorem pairwise_lt_zipIdx {α : Type} (items : List α) (first : Nat) :
    (items.zipIdx first).Pairwise fun left right => left.2 < right.2 := by
  have sorted : ((items.zipIdx first).map Prod.snd).Pairwise (· < ·) := by
    rw [List.zipIdx_map_snd]
    exact List.pairwise_lt_range'
  exact List.pairwise_map.1 sorted

theorem zipIdx_map_zipIdx {α β : Type} (items : List α) (f : α × Nat → β) :
    (items.zipIdx.map f).zipIdx = items.zipIdx.map fun item => (f item, item.2) := by
  apply List.ext_getElem?
  intro index
  simp only [List.getElem?_zipIdx, List.getElem?_map, Option.map_map, Function.comp_def,
    Nat.zero_add]

theorem origin_of_mem_cellsOfParagraph {vocabulary : Vocabulary} {index : Nat}
    {paragraph : Element} {cell : Cell}
    (member : cell ∈ cellsOfParagraph vocabulary index paragraph) :
    ∃ run, cell.origin.paragraph = index ∧ paragraph.children[cell.origin.run]? = some run ∧
      run.isNamed vocabulary.run = true ∧
      cell ∈ cellsOfRun vocabulary index cell.origin.run run := by
  obtain ⟨⟨child, place⟩, indexed, inChild⟩ := List.mem_flatMap.1 member
  dsimp only at inChild
  split at inChild
  · rename_i isRun
    obtain ⟨origin, _⟩ := origin_of_mem_cellsOfRun inChild
    have run : cell.origin.run = place := by rw [origin]
    refine ⟨child, by rw [origin], ?_, isRun, ?_⟩
    · rw [run]
      exact List.mk_mem_zipIdx_iff_getElem?.1 indexed
    · rw [run]
      exact inChild
  · simp at inChild

theorem ordered_cellsOfParagraph (vocabulary : Vocabulary) (index : Nat) (paragraph : Element) :
    Ordered (cellsOfParagraph vocabulary index paragraph) := by
  refine List.pairwise_flatMap.2 ⟨?_, (pairwise_lt_zipIdx _ _).imp ?_⟩
  · rintro ⟨child, place⟩ _
    dsimp only
    split
    · exact ordered_cellsOfRun vocabulary index place child
    · exact List.Pairwise.nil
  · rintro ⟨child, place⟩ ⟨child', place'⟩ earlier first firstMember second secondMember
    dsimp only at earlier firstMember secondMember
    split at firstMember <;> split at secondMember
    · obtain ⟨firstOrigin, _⟩ := origin_of_mem_cellsOfRun firstMember
      obtain ⟨secondOrigin, _⟩ := origin_of_mem_cellsOfRun secondMember
      unfold Cell.Precedes
      rw [firstOrigin, secondOrigin]
      exact Or.inr ⟨rfl, Or.inl earlier⟩
    all_goals simp_all

theorem ordered_flatten (vocabulary : Vocabulary) (elements : List Element) :
    Ordered (flatten vocabulary elements) := by
  refine List.pairwise_flatMap.2 ⟨?_, (pairwise_lt_zipIdx _ _).imp ?_⟩
  · rintro ⟨paragraph, index⟩ _
    exact ordered_cellsOfParagraph vocabulary index paragraph
  · rintro ⟨paragraph, index⟩ ⟨paragraph', index'⟩ earlier first firstMember second secondMember
    obtain ⟨_, firstIndex, _⟩ := origin_of_mem_cellsOfParagraph firstMember
    obtain ⟨_, secondIndex, _⟩ := origin_of_mem_cellsOfParagraph secondMember
    unfold Cell.Precedes
    rw [firstIndex, secondIndex]
    exact Or.inl earlier

theorem placed_flatten (vocabulary : Vocabulary) (elements : List Element) :
    Placed vocabulary (leadingParagraphs vocabulary elements) (flatten vocabulary elements) := by
  intro cell member
  obtain ⟨⟨paragraph, index⟩, indexed, inside⟩ := List.mem_flatMap.1 member
  obtain ⟨run, paragraphIndex, runAt, isRun, inRun⟩ := origin_of_mem_cellsOfParagraph inside
  obtain ⟨origin, isSome_char_iff⟩ := origin_of_mem_cellsOfRun inRun
  refine ⟨paragraph, run, ?_, runAt, isRun, by rw [origin], isSome_char_iff⟩
  rw [paragraphIndex]
  exact List.mk_mem_zipIdx_iff_getElem?.1 indexed

theorem leadingParagraphs_eq_self {vocabulary : Vocabulary} {group : List Element}
    (paragraphs : ∀ element, element ∈ group → isParagraph vocabulary element = true) :
    leadingParagraphs vocabulary group = group := by
  induction group with
  | nil => rfl
  | cons element rest ih =>
    rw [leadingParagraphs, List.takeWhile_cons_of_pos (paragraphs element (by simp))]
    exact congrArg _ (ih fun other member => paragraphs other (List.mem_cons_of_mem _ member))

theorem placed_flatten_of_paragraphs {vocabulary : Vocabulary} {group : List Element}
    (paragraphs : ∀ element, element ∈ group → isParagraph vocabulary element = true) :
    Placed vocabulary group (flatten vocabulary group) := by
  have placed := placed_flatten vocabulary group
  rwa [leadingParagraphs_eq_self paragraphs] at placed

end MailMerge.Run
