import Mathlib.Algebra.Order.BigOperators.Group.List
import Mathlib.Algebra.Order.Group.Nat
import MailMerge.Proofs.Fill.FilledGroups

/-!
The two policies compared on one tree. Leading paragraphs are also a stretch of paragraphs, so a
walk that fills every stretch fills them too, but only where it gets to: it never searches a
paragraph, while the walk that fills leading paragraphs searches one that stands behind another
child.
-/

set_option autoImplicit false

namespace MailMerge.Fill

open Markup (Element)

/-- Does a path lead to one of the paragraphs of a group? -/
def Group.Contains (group : Group) (path : List Nat) : Prop :=
  ∃ index, path = group.path ++ [index] ∧
    group.first ≤ index ∧ index < group.first + group.paragraphs.length

namespace Guide

def under (guide : Guide) (policy : SiblingPolicy) : Guide := { guide with policy := policy }

/-- Is one of the elements on the way down a path of indices a paragraph? -/
def crossesParagraph (guide : Guide) : List Nat → List Element → Bool
  | [], _ => false
  | index :: path, elements =>
    match elements[index]? with
    | some element => guide.isParagraph element || guide.crossesParagraph path element.children
    | none => false

section

variable {guide : Guide}

theorem crossesParagraph_cons {index : Nat} {elements : List Element} {element : Element}
    (there : elements[index]? = some element) (path : List Nat) :
    guide.crossesParagraph (index :: path) elements
      = (guide.isParagraph element || guide.crossesParagraph path element.children) := by
  simp only [crossesParagraph, there]

/-- Leading paragraphs are a stretch. -/
theorem Stretch.split {children : List Element} {first : Nat} {paragraphs : List Element}
    (leading : (guide.under .truncate).Stretch children first paragraphs) :
    (guide.under .split).Stretch children first paragraphs := by
  obtain ⟨filled, all, front, behind, whole, index, begins, stops⟩ := leading
  have empty : front = [] := begins
  refine ⟨filled, all, front, behind, whole, index, ?_, stops⟩
  rw [empty]
  rfl

/-- Outside of all paragraphs, a group of leading paragraphs is a group for the other policy. -/
theorem IsGroup.split {elements : List Element} {group : Group}
    (leading : (guide.under .truncate).IsGroup elements group)
    (outside : guide.crossesParagraph group.path elements = false) :
    (guide.under .split).IsGroup elements group := by
  induction leading with
  | here stretch => exact .here stretch.split
  | @inside children index child group there enters below ih =>
    have apart : guide.isParagraph child = false ∧
        guide.crossesParagraph group.path child.children = false := by
      rw [← Bool.or_eq_false_iff, ← crossesParagraph_cons there]
      exact outside
    exact .inside there apart.1 (ih apart.2)

/-- When every stretch is filled, no group lies inside a paragraph. -/
theorem IsGroup.crossesParagraph_eq_false {elements : List Element} {group : Group}
    (isGroup : (guide.under .split).IsGroup elements group) :
    guide.crossesParagraph group.path elements = false := by
  induction isGroup with
  | here stretch => rfl
  | @inside children index child group there enters below ih =>
    have other : guide.isParagraph child = false := enters
    show guide.crossesParagraph (index :: group.path) children = false
    rw [crossesParagraph_cons there, other, ih]
    rfl

theorem IsGroup.filled {elements : List Element} {group : Group}
    (isGroup : guide.IsGroup elements group) : group.paragraphs ≠ [] := by
  induction isGroup with
  | here stretch => exact stretch.filled
  | inside there enters below ih => exact ih

/-- The paragraphs of a leading group all lie in groups of the other policy exactly if they do not
lie inside a paragraph. -/
theorem contained_iff {elements : List Element} {leading stretches : List Group}
    (lists : (guide.under .truncate).Lists elements leading)
    (others : (guide.under .split).Lists elements stretches) {group : Group}
    (member : group ∈ leading) :
    (∀ path, group.Contains path → ∃ stretch, stretch ∈ stretches ∧ stretch.Contains path) ↔
      guide.crossesParagraph group.path elements = false := by
  have isGroup := (lists.exactly group).1 member
  constructor
  · intro contained
    have filled : 0 < group.paragraphs.length := List.length_pos_iff.2 isGroup.filled
    obtain ⟨stretch, inStretches, index, same, _⟩ := contained (group.path ++ [group.first])
      ⟨group.first, rfl, Nat.le_refl _, Nat.lt_add_of_pos_right filled⟩
    obtain ⟨path, _⟩ := List.append_inj' same rfl
    rw [path]
    exact ((others.exactly stretch).1 inStretches).crossesParagraph_eq_false
  · intro outside path contains
    exact ⟨group, (others.exactly group).2 (isGroup.split outside), contains⟩

/-- No group is listed twice. -/
theorem Lists.nodup {elements : List Element} {groups : List Group}
    (lists : guide.Lists elements groups) : groups.Nodup := by
  refine lists.ordered.imp fun before same => ?_
  subst same
  exact absurd before (List.lt_irrefl _)

/-- What is added up over groups of leading paragraphs outside of all paragraphs is part of what is
added up over all stretches. -/
theorem sum_leading_le (count : Group → Nat) {elements : List Element}
    {leading stretches : List Group} (lists : (guide.under .truncate).Lists elements leading)
    (others : (guide.under .split).Lists elements stretches) :
    (leading.map count).sum ≤ (stretches.map count).sum
      + ((leading.filter fun group =>
          guide.crossesParagraph group.path elements).map count).sum := by
  obtain ⟨inside, insideEq⟩ : ∃ inside, inside = leading.filter fun group =>
    guide.crossesParagraph group.path elements := ⟨_, rfl⟩
  obtain ⟨outside, outsideEq⟩ : ∃ outside, outside = leading.filter fun group =>
    !guide.crossesParagraph group.path elements := ⟨_, rfl⟩
  have cut : (leading.map count).sum = (inside.map count).sum + (outside.map count).sum := by
    rw [← List.sum_append, ← List.map_append, insideEq, outsideEq]
    exact ((List.filter_append_perm _ leading).map count).sum_eq.symm
  have found : outside ⊆ stretches := by
    intro group member
    rw [outsideEq, List.mem_filter, Bool.not_eq_true'] at member
    exact (others.exactly group).2 (((lists.exactly group).1 member.1).split member.2)
  have part : (outside.map count).sum ≤ (stretches.map count).sum := by
    have distinct : outside.Nodup := outsideEq ▸ lists.nodup.filter _
    obtain ⟨some, same, sublist⟩ := List.subperm_of_subset distinct found
    rw [← (same.map count).sum_eq]
    exact (sublist.map count).sum_le_sum fun _ _ => Nat.zero_le _
  rw [← insideEq, cut]
  omega

end

/-- On a tree where both walks succeed, the paragraphs of a group of leading paragraphs are filled
by the walk that fills every stretch exactly if they do not lie inside a paragraph. That walk
replaces at least what the other one replaces outside of all paragraphs. -/
theorem split_fills_leading (guide : Guide) (resolve : Text → Option Text) (root : Element)
    (truncateSucceeds :
      (((guide.under .truncate).walk root).run resolve).failure = none)
    (splitSucceeds : (((guide.under .split).walk root).run resolve).failure = none) :
    ∃ leading stretches,
      (guide.under .truncate).Lists root.children leading ∧
      (guide.under .truncate).WalkFills resolve root leading ∧
      (guide.under .split).Lists root.children stretches ∧
      (guide.under .split).WalkFills resolve root stretches ∧
      (∀ group, group ∈ leading →
        ((∀ path, group.Contains path → ∃ stretch, stretch ∈ stretches ∧ stretch.Contains path) ↔
          guide.crossesParagraph group.path root.children = false)) ∧
      (((guide.under .truncate).walk root).run resolve).report.replaced
        ≤ (((guide.under .split).walk root).run resolve).report.replaced
          + ((leading.filter fun group => guide.crossesParagraph group.path root.children).map
              fun group => (group.alone guide resolve).report.replaced).sum := by
  obtain ⟨leading, lists, visits⟩ := (guide.under .truncate).exists_visits_walk root
  obtain ⟨stretches, others, visitsOthers⟩ := (guide.under .split).exists_visits_walk root
  have fills := fills_of_visits visits truncateSucceeds
  have fillsOthers := fills_of_visits visitsOthers splitSucceeds
  refine ⟨leading, stretches, lists, fills, others, fillsOthers,
    fun group member => contained_iff lists others member, ?_⟩
  rw [fills.replaced, fillsOthers.replaced]
  exact sum_leading_le (fun group => (group.alone guide resolve).report.replaced) lists others

end Guide

/-- A paragraph in a text box of another paragraph, which stands behind a table. It is filled when
only leading paragraphs are, and it is not filled when every stretch of paragraphs is. -/
theorem text_box_behind_table_left_by_split :
    let guide := Guide.standard
    let placeholder := paragraphOf [textRun ['{', '{', 'a', '}', '}']]
    let anchor := fun boxed : Element =>
      paragraphOf [⟨Vocabulary.standard.run, [], [], [containerOf [boxed]], false⟩]
    let root := containerOf [containerOf [], anchor placeholder]
    let filled := containerOf [containerOf [], anchor (paragraphOf [textRun ['A']])]
    let resolve := fun _ : Text => some ['A']
    let group : Group := ⟨[1, 0, 0], 0, [placeholder]⟩
    ((guide.under .truncate).walk root).run resolve = ⟨filled, ⟨1, 1, 0, 0⟩, [], none⟩ ∧
      ((guide.under .split).walk root).run resolve = ⟨root, ⟨1, 0, 0, 0⟩, [], none⟩ ∧
      (guide.under .truncate).IsGroup root.children group ∧ group.Contains [1, 0, 0, 0] ∧
      ∀ stretch, (guide.under .split).IsGroup root.children stretch →
        ¬ stretch.Contains [1, 0, 0, 0] := by
  intro guide placeholder anchor root filled resolve group
  refine ⟨by cbv, by cbv, ?_, ⟨0, rfl, Nat.le_refl 0, Nat.one_pos⟩, ?_⟩
  · have here : (guide.under .truncate).IsGroup [placeholder] ⟨[], 0, [placeholder]⟩ :=
      .here ⟨by decide, by decide, [], [], rfl, rfl, rfl, rfl⟩
    have searched : ∀ (children : List Element) (index : Nat) (child : Element) (group : Group),
        children[index]? = some child → children.head?.any guide.isParagraph = false →
          (guide.under .truncate).IsGroup child.children group →
            (guide.under .truncate).IsGroup children (group.inside index) :=
      fun _ _ _ _ there other below => .inside there other below
    have boxed := searched [containerOf [placeholder]] 0 _ _ rfl rfl here
    have anchored := searched (anchor placeholder).children 0 _ _ rfl rfl boxed
    exact searched root.children 1 _ _ rfl rfl anchored
  · rintro stretch isGroup ⟨index, same, _⟩
    have path : [1, 0, 0] = stretch.path :=
      (List.append_inj' (show [1, 0, 0] ++ [0] = stretch.path ++ [index] from same) rfl).1
    have outside := isGroup.crossesParagraph_eq_false
    have crosses : guide.crossesParagraph [1, 0, 0] root.children = true := by cbv
    rw [← path] at outside
    exact absurd (crosses.symm.trans outside) (by decide)

/-- A table with a placeholder stands in front of a paragraph with another one. Only the first is
filled when only leading paragraphs are, and both are when every stretch of paragraphs is. -/
theorem paragraph_behind_table_filled_by_split :
    let guide := Guide.standard
    let placeholder := paragraphOf [textRun ['{', '{', 'a', '}', '}']]
    let value := paragraphOf [textRun ['A']]
    let root := containerOf [containerOf [placeholder], placeholder]
    let first := containerOf [containerOf [value], placeholder]
    let both := containerOf [containerOf [value], value]
    let resolve := fun _ : Text => some ['A']
    ((guide.under .truncate).walk root).run resolve = ⟨first, ⟨1, 1, 0, 0⟩, [], none⟩ ∧
      ((guide.under .split).walk root).run resolve = ⟨both, ⟨2, 2, 0, 0⟩, [], none⟩ ∧
      ∃ leading stretches, (guide.under .truncate).WalkFills resolve root leading ∧
        (guide.under .split).WalkFills resolve root stretches ∧
        ∀ group, group ∈ leading →
          ((∀ path, group.Contains path →
              ∃ stretch, stretch ∈ stretches ∧ stretch.Contains path) ↔
            guide.crossesParagraph group.path root.children = false) := by
  intro guide placeholder value root first both resolve
  have truncate : ((guide.under .truncate).walk root).run resolve
      = ⟨first, ⟨1, 1, 0, 0⟩, [], none⟩ := by cbv
  have split : ((guide.under .split).walk root).run resolve
      = ⟨both, ⟨2, 2, 0, 0⟩, [], none⟩ := by cbv
  obtain ⟨leading, stretches, _, fills, _, fillsOthers, contained, _⟩ :=
    guide.split_fills_leading resolve root (by rw [truncate]) (by rw [split])
  exact ⟨truncate, split, leading, stretches, fills, fillsOthers, contained⟩

end MailMerge.Fill
