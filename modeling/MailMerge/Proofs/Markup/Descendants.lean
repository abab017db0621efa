import MailMerge.Proofs.Fill.Group
import MailMerge.Proofs.Markup.CharacterData

set_option autoImplicit false

namespace MailMerge.Markup

open Fill (descendant?)

namespace Element

theorem preorder_eq (element : Element) :
    element.preorder = element :: preorderAll element.children := by
  cases element
  rfl

theorem preorderAll_append (first second : List Element) :
    preorderAll (first ++ second) = preorderAll first ++ preorderAll second := by
  induction first with
  | nil => rfl
  | cons element first ih =>
    rw [List.cons_append, preorderAll, preorderAll, ih, List.append_assoc]

mutual

/-- The paths of indices to an element, which is the root, and to all elements inside it, in
document order. -/
def places : Element → List (List Nat)
  | ⟨_, _, _, children, _⟩ => [] :: placesFrom 0 children

/-- The paths to the elements of a list, which have indices from `index` on, and to all inside
them. -/
def placesFrom (index : Nat) : List Element → List (List Nat)
  | [] => []
  | element :: rest => element.places.map (index :: ·) ++ placesFrom (index + 1) rest

end

theorem places_eq (element : Element) : element.places = [] :: placesFrom 0 element.children := by
  cases element
  rfl

theorem exists_of_mem_placesFrom {index : Nat} {elements : List Element} {path : List Nat}
    (member : path ∈ placesFrom index elements) :
    ∃ first below, path = first :: below ∧ index ≤ first := by
  induction elements generalizing index with
  | nil => cases member
  | cons element rest ih =>
    rw [placesFrom, List.mem_append] at member
    obtain here | behind := member
    · obtain ⟨below, -, rfl⟩ := List.mem_map.1 here
      exact ⟨index, below, rfl, Nat.le_refl index⟩
    · obtain ⟨first, below, rfl, later⟩ := ih behind
      exact ⟨first, below, rfl, by omega⟩

mutual

/-- The places of a tree are listed in their order, each of them once. -/
theorem sorted_places : ∀ element : Element, element.places.Pairwise (· < ·)
  | ⟨_, _, _, children, _⟩ => by
    rw [places, List.pairwise_cons]
    refine ⟨fun path member => ?_, sorted_placesFrom 0 children⟩
    obtain ⟨first, below, rfl, -⟩ := exists_of_mem_placesFrom member
    exact List.nil_lt_cons first below

theorem sorted_placesFrom (index : Nat) :
    ∀ elements : List Element, (placesFrom index elements).Pairwise (· < ·)
  | [] => List.Pairwise.nil
  | element :: rest => by
    rw [placesFrom, List.pairwise_append, List.pairwise_map]
    refine ⟨?_, sorted_placesFrom (index + 1) rest, ?_⟩
    · exact (sorted_places element).imp fun before => List.cons_lt_cons_iff.2 (.inr ⟨rfl, before⟩)
    · intro here inside behind member
      obtain ⟨below, -, rfl⟩ := List.mem_map.1 inside
      obtain ⟨first, others, rfl, later⟩ := exists_of_mem_placesFrom member
      exact List.cons_lt_cons_iff.2 (.inl (by omega))

end

mutual

/-- What stands at the places of a tree is the tree in document order. -/
theorem map_places : ∀ element : Element,
    element.places.map (fun path => descendant? path element) = element.preorder.map some
  | ⟨name, attributes, data, children, selfClosing⟩ => by
    rw [places, preorder, List.map_cons, List.map_cons]
    exact congrArg (_ :: ·) (map_placesFrom [] children rfl)

theorem map_placesFrom {root : Element} (front elements : List Element)
    (children : root.children = front ++ elements) :
    (placesFrom front.length elements).map (fun path => descendant? path root)
      = (preorderAll elements).map some := by
  match elements with
  | [] => rfl
  | element :: rest =>
    have here : root.children[front.length]? = some element := by
      rw [children, List.getElem?_append_right (Nat.le_refl _), Nat.sub_self]
      rfl
    have inside : (element.places.map (front.length :: ·)).map (fun path => descendant? path root)
        = element.preorder.map some := by
      rw [List.map_map, ← map_places element]
      apply List.map_congr_left
      intro path _
      simp only [Function.comp_apply, descendant?, here, Option.bind_some]
    have behind := map_placesFrom (front ++ [element]) rest
      (by rw [children, List.append_assoc, List.singleton_append])
    rw [List.length_append, List.length_singleton] at behind
    rw [placesFrom, preorderAll, List.map_append, List.map_append, inside, behind]

end

theorem mem_placesFrom {elements : List Element} {element : Element} {place : Nat}
    {below : List Nat} (here : elements[place]? = some element) (inside : below ∈ element.places)
    (index : Nat) : (index + place) :: below ∈ placesFrom index elements := by
  induction elements generalizing index place with
  | nil => cases here
  | cons first rest ih =>
    rw [placesFrom, List.mem_append]
    cases place with
    | zero =>
      obtain rfl := Option.some.inj here
      exact .inl (List.mem_map.2 ⟨below, inside, rfl⟩)
    | succ place =>
      have behind : (index + 1 + place) :: below ∈ placesFrom (index + 1) rest :=
        ih here (index + 1)
      rw [Nat.add_right_comm] at behind
      exact .inr behind

/-- The places of a tree are the paths that lead to an element of it. -/
theorem mem_places_iff {root : Element} {path : List Nat} :
    path ∈ root.places ↔ ∃ element, descendant? path root = some element := by
  constructor
  · intro member
    have found : descendant? path root ∈ root.preorder.map some := by
      rw [← map_places]
      exact List.mem_map_of_mem member
    obtain ⟨element, -, same⟩ := List.mem_map.1 found
    exact ⟨element, same.symm⟩
  · rintro ⟨element, found⟩
    induction path generalizing root with
    | nil =>
      rw [places_eq]
      exact List.mem_cons_self
    | cons index below ih =>
      obtain ⟨child, here, inside⟩ := Option.bind_eq_some_iff.1 found
      rw [places_eq]
      have member := mem_placesFrom here (ih inside) 0
      rw [Nat.zero_add] at member
      exact List.mem_cons_of_mem [] member

namespace Search

variable {search later last : Search} {element : Element}

/-- The elements that are left, in document order. -/
def unvisited (search : Search) : List Element := preorderAll search.pending

/-- The matches that are left. -/
def remaining (search : Search) : List Element := search.unvisited.filter (isNamed search.name)

theorem unvisited_inside (name : Text) (root : Element) :
    (inside name root).unvisited = preorderAll root.children := by
  simp [unvisited, pending, inside]

theorem unvisited_eq_nil_of_visit? (ended : search.visit? = none) : search.unvisited = [] := by
  have nothing : search.left = #[] := by simpa [visit?] using ended
  rw [unvisited, pending, nothing]
  rfl

theorem unvisited_eq_of_visit? (visited : search.visit? = some (element, later)) :
    later.name = search.name ∧ search.unvisited = element :: later.unvisited := by
  obtain ⟨name, rest, before, behind⟩ := visit?_eq_some visited
  refine ⟨name, ?_⟩
  rw [unvisited, unvisited, before, behind, preorderAll, preorder_eq, preorderAll_append,
    List.cons_append]

/-- A search takes the elements of a list off, one after the other. -/
inductive Visits : Search → List Element → Search → Prop
  | refl (search : Search) : Visits search [] search
  | visit {search later last : Search} {element : Element} {elements : List Element}
      (first : search.visit? = some (element, later)) (rest : Visits later elements last) :
      Visits search (element :: elements) last

theorem Visits.trans {first second : List Element} (front : Visits search first later)
    (back : Visits later second last) : Visits search (first ++ second) last := by
  induction front with
  | refl search => exact back
  | visit first _ ih => exact .visit first (ih back)

/-- No element is left out, and none is visited twice. -/
theorem Visits.unvisited_eq {elements : List Element} (visits : Visits search elements later) :
    later.name = search.name ∧ search.unvisited = elements ++ later.unvisited := by
  induction visits with
  | refl search => exact ⟨rfl, rfl⟩
  | visit first _ ih =>
    obtain ⟨name, here⟩ := unvisited_eq_of_visit? first
    exact ⟨ih.1.trans name, by rw [here, ih.2, List.cons_append]⟩

/-- A call passes over elements with other names up to a match, or else visits all that is left. -/
theorem visits_next (search : Search) :
    ∃ passed, (∀ element ∈ passed, element.isNamed search.name = false) ∧
      ((search.next.1 = none ∧ Visits search passed search.next.2 ∧
          search.next.2.unvisited = []) ∨
        ∃ element, search.next.1 = some element ∧ element.isNamed search.name = true ∧
          Visits search (passed ++ [element]) search.next.2) := by
  fun_induction next search with
  | case1 search ended =>
    exact ⟨[], by simp, .inl ⟨rfl, .refl search, unvisited_eq_nil_of_visit? ended⟩⟩
  | case2 search element later visited named =>
    exact ⟨[], by simp, .inr ⟨element, rfl, named, .visit visited (.refl later)⟩⟩
  | case3 search first later visited other ih =>
    obtain ⟨passed, others, ends⟩ := ih
    rw [(unvisited_eq_of_visit? visited).1] at others ends
    have notNamed : first.isNamed search.name = false := by simpa using other
    refine ⟨first :: passed, by simpa [notNamed] using others, ?_⟩
    obtain ⟨none, visits, nothing⟩ | ⟨element, found, named, visits⟩ := ends
    · exact .inl ⟨none, .visit visited visits, nothing⟩
    · exact .inr ⟨element, found, named, .visit visited visits⟩

/-- A call takes the first of the matches that are left. -/
theorem next_eq (search : Search) :
    search.next.1 = search.remaining.head? ∧ search.next.2.remaining = search.remaining.tail := by
  obtain ⟨passed, others, ends⟩ := visits_next search
  have skipped : passed.filter (isNamed search.name) = [] :=
    List.filter_eq_nil_iff.2 fun element member => by simp [others element member]
  obtain ⟨none, visits, nothing⟩ | ⟨element, found, named, visits⟩ := ends
  · obtain ⟨-, unvisited⟩ := visits.unvisited_eq
    have ended : search.remaining = [] := by
      rw [remaining, unvisited, nothing, List.append_nil, skipped]
    rw [none, ended, remaining, nothing]
    exact ⟨rfl, rfl⟩
  · obtain ⟨name, unvisited⟩ := visits.unvisited_eq
    have front : search.remaining = element :: search.next.2.remaining := by
      rw [remaining, unvisited, List.filter_append, List.filter_append, skipped, remaining, name]
      simp [named]
    rw [found, front]
    exact ⟨rfl, rfl⟩

/-- The search behind a number of calls. -/
def after (search : Search) : Nat → Search
  | 0 => search
  | calls + 1 => (search.after calls).next.2

theorem remaining_after (search : Search) (calls : Nat) :
    (search.after calls).remaining = search.remaining.drop calls := by
  induction calls with
  | zero => rfl
  | succ calls ih => rw [after, (next_eq _).2, ih, List.tail_drop]

theorem exists_visits_after (search : Search) (calls : Nat) :
    ∃ visited, Visits search visited (search.after calls) := by
  induction calls with
  | zero => exact ⟨[], .refl search⟩
  | succ calls ih =>
    obtain ⟨visited, front⟩ := ih
    obtain ⟨passed, -, ⟨-, back, -⟩ | ⟨element, -, -, back⟩⟩ := visits_next (search.after calls)
    · exact ⟨_, front.trans back⟩
    · exact ⟨_, front.trans back⟩

/-- A search that found nothing more has visited all elements. -/
theorem visits_all_of_next_eq_none {calls : Nat} (ended : (search.after calls).next.1 = none) :
    Visits search search.unvisited (search.after (calls + 1)) := by
  obtain ⟨visited, visits⟩ := exists_visits_after search (calls + 1)
  obtain ⟨passed, -, ⟨-, -, nothing⟩ | ⟨element, found, -⟩⟩ := visits_next (search.after calls)
  · have all := visits.unvisited_eq.2
    rw [after, nothing, List.append_nil] at all
    rw [all]
    exact visits
  · rw [ended] at found
    cases found

theorem toList_eq (search : Search) : search.toList = search.remaining := by
  fun_induction toList search with
  | case1 search later ended =>
    obtain ⟨first, -⟩ := next_eq search
    rw [ended] at first
    exact (List.head?_eq_none_iff.1 first.symm).symm
  | case2 search element later found ih =>
    obtain ⟨first, rest⟩ := next_eq search
    rw [found] at first rest
    rw [ih, rest]
    exact (List.cons_head?_tail first.symm)

end Search

theorem descendants_eq (name : Text) (root : Element) :
    root.descendants name = (preorderAll root.children).filter (isNamed name) := by
  rw [descendants, Search.toList_eq, Search.remaining, Search.unvisited_inside]
  rfl

/-- Proper descendants are found on the paths that are not empty. -/
theorem mem_placesFrom_iff {root : Element} {path : List Nat} :
    path ∈ placesFrom 0 root.children ↔
      path ≠ [] ∧ ∃ element, descendant? path root = some element := by
  rw [← mem_places_iff, places_eq, List.mem_cons]
  constructor
  · intro member
    obtain ⟨first, below, rfl, -⟩ := exists_of_mem_placesFrom member
    exact ⟨List.cons_ne_nil first below, .inr member⟩
  · rintro ⟨notRoot, root | member⟩
    · exact absurd root notRoot
    · exact member

/-- The search for a name finds the elements inside a tree that have this name, each at its own
place and once, in document order, those inside other matches included. Call by call it returns the
next one of them, and then none, having visited every element inside the tree once. -/
theorem descendants_in_order (name : Text) (root : Element) :
    root.descendants name = (preorderAll root.children).filter (isNamed name) ∧
      (∃ places : List (List Nat), places.Pairwise (· < ·) ∧
        (∀ path, path ∈ places ↔
          path ≠ [] ∧ ∃ element, descendant? path root = some element ∧ element.isNamed name) ∧
        places.map (fun path => descendant? path root) = (root.descendants name).map some) ∧
      (∀ calls, ((Search.inside name root).after calls).next.1 = (root.descendants name)[calls]?) ∧
      ∀ more, Search.Visits (Search.inside name root) (preorderAll root.children)
        ((Search.inside name root).after ((root.descendants name).length + more + 1)) := by
  have remaining : (Search.inside name root).remaining = root.descendants name :=
    (Search.toList_eq _).symm
  have found : ∀ calls,
      ((Search.inside name root).after calls).next.1 = (root.descendants name)[calls]? := by
    intro calls
    rw [(Search.next_eq _).1, Search.remaining_after, remaining, List.head?_drop]
  refine ⟨descendants_eq name root, ?_, found, fun more => ?_⟩
  · refine ⟨(placesFrom 0 root.children).filter
        fun path => (descendant? path root).any (isNamed name),
      (sorted_placesFrom 0 root.children).filter _, fun path => ?_, ?_⟩
    · rw [List.mem_filter, mem_placesFrom_iff, Option.any_eq_true]
      constructor
      · rintro ⟨⟨notRoot, -⟩, named⟩
        exact ⟨notRoot, named⟩
      · rintro ⟨notRoot, element, here, named⟩
        exact ⟨⟨notRoot, element, here⟩, element, here, named⟩
    · have elements := map_placesFrom [] root.children rfl
      calc _ = ((placesFrom 0 root.children).map fun path => descendant? path root).filter
            (Option.any (isNamed name)) := by rw [List.filter_map]; rfl
        _ = ((preorderAll root.children).map some).filter (Option.any (isNamed name)) := by
          rw [← elements]; rfl
        _ = (root.descendants name).map some := by
          rw [List.filter_map, descendants_eq]; rfl
  · have ended : ((Search.inside name root).after ((root.descendants name).length + more)).next.1
        = none := by
      rw [found]
      exact List.getElem?_eq_none (Nat.le_add_right _ _)
    rw [← Search.unvisited_inside name root]
    exact Search.visits_all_of_next_eq_none ended

/-- A match inside a match comes behind it, and in front of the next sibling. -/
example :
    let inner : Element := .ofData ['p'] ['2']
    let outer : Element := ⟨['p'], [], ['1'], [.ofData ['r'] [], inner], false⟩
    (⟨['p'], [], [], [outer, .ofData ['p'] ['3']], false⟩ : Element).descendants ['p']
      = [outer, inner, .ofData ['p'] ['3']] := by
  decide +kernel

end Element

end MailMerge.Markup
