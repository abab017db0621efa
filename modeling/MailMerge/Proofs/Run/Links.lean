import Mathlib.Data.List.Nodup
import MailMerge.Run.Linked

/-!
What the links between slots say. A row of slots can be cut between two neighbours, in front of the
first slot and behind the last one. Links hold a row when at each cut the place in front, which is
the anchor or a slot, and the place behind, which is a slot or the end, link to each other.
-/

set_option autoImplicit false

namespace MailMerge.Run.Linked

variable {row : Linked} {places front middle behind : List Nat} {place next : Option Nat}
  {cell : Cell}

/-- The place in front of a place, where none is the end of the row. -/
def before (row : Linked) : Option Nat → Option Nat
  | none => row.last
  | some index => row.previousOf (some index)

/-- A place is no slot or one that exists. -/
def Exists (row : Linked) (place : Option Nat) : Prop := ∀ index ∈ place, index < row.slots.size

/-- The slots at `places` are linked in this order, forward from the anchor to the end and back from
the end to the anchor. -/
structure Links (row : Linked) (places : List Nat) : Prop where
  nodup : places.Nodup
  slot : ∀ index ∈ places, index < row.slots.size
  forward : ∀ front behind, places = front ++ behind → row.nextOf front.getLast? = behind.head?
  backward : ∀ front behind, places = front ++ behind → row.before behind.head? = front.getLast?
  length : row.length = places.length

theorem Links.withCurrent (links : row.Links places) (place : Option Nat) :
    ({ row with current := place } : Linked).Links places :=
  ⟨links.nodup, links.slot, links.forward, links.backward, links.length⟩

theorem Links.length_le_slots (links : row.Links places) :
    places.length ≤ row.slots.size := by
  have inside : places ⊆ List.range row.slots.size := fun index member =>
    List.mem_range.2 (links.slot index member)
  simpa using links.nodup.length_le_of_subset inside

@[simp] theorem slots_linkNext_size : (row.linkNext place next).slots.size = row.slots.size := by
  cases place <;> simp [linkNext]

@[simp] theorem slots_linkPrevious_size :
    (row.linkPrevious place next).slots.size = row.slots.size := by
  cases place <;> simp [linkPrevious]

@[simp] theorem current_linkNext : (row.linkNext place next).current = row.current := by
  cases place <;> rfl

@[simp] theorem current_linkPrevious : (row.linkPrevious place next).current = row.current := by
  cases place <;> rfl

@[simp] theorem length_linkNext : (row.linkNext place next).length = row.length := by
  cases place <;> rfl

@[simp] theorem length_linkPrevious : (row.linkPrevious place next).length = row.length := by
  cases place <;> rfl

@[simp] theorem cellAt?_linkNext (index : Nat) :
    (row.linkNext place next).cellAt? index = row.cellAt? index := by
  cases place with
  | none => rfl
  | some changed =>
    simp only [linkNext, cellAt?, Array.getElem?_modify]
    split <;> simp [Option.map_map, Function.comp_def]

@[simp] theorem cellAt?_linkPrevious (index : Nat) :
    (row.linkPrevious place next).cellAt? index = row.cellAt? index := by
  cases place with
  | none => rfl
  | some changed =>
    simp only [linkPrevious, cellAt?, Array.getElem?_modify]
    split <;> simp [Option.map_map, Function.comp_def]

theorem nextOf_linkNext (existing : row.Exists place) (other : Option Nat) :
    (row.linkNext place next).nextOf other = if other = place then next else row.nextOf other := by
  cases place with
  | none => cases other <;> rfl
  | some changed =>
    have inside := existing changed rfl
    cases other with
    | none => rfl
    | some index =>
      simp only [linkNext, nextOf, Array.getElem?_modify, Option.some.injEq]
      by_cases same : index = changed
      · simp [same, inside]
      · simp [same, Ne.symm same]

@[simp] theorem before_linkNext (other : Option Nat) :
    (row.linkNext place next).before other = row.before other := by
  cases place with
  | none => cases other <;> rfl
  | some changed =>
    cases other with
    | none => rfl
    | some index =>
      simp only [linkNext, before, previousOf, Array.getElem?_modify]
      split
      · rw [Option.bind_map]
        rfl
      · rfl

theorem before_linkPrevious (existing : row.Exists place) (other : Option Nat) :
    (row.linkPrevious place next).before other
      = if other = place then next else row.before other := by
  cases place with
  | none => cases other <;> rfl
  | some changed =>
    have inside := existing changed rfl
    cases other with
    | none => rfl
    | some index =>
      simp only [linkPrevious, before, previousOf, Array.getElem?_modify, Option.some.injEq]
      by_cases same : index = changed
      · simp [same, inside]
      · simp [same, Ne.symm same]

@[simp] theorem nextOf_linkPrevious (other : Option Nat) :
    (row.linkPrevious place next).nextOf other = row.nextOf other := by
  cases place with
  | none => cases other <;> rfl
  | some changed =>
    cases other with
    | none => rfl
    | some index =>
      simp only [linkPrevious, nextOf, Array.getElem?_modify]
      split
      · rw [Option.bind_map]
        rfl
      · rfl

theorem getLast?_ne_of_nodup (nodup : (front ++ middle).Nodup) (nonempty : middle ≠ []) :
    front.getLast? ≠ middle.getLast? := by
  rw [List.getLast?_eq_some_getLast nonempty]
  intro last
  exact (List.nodup_append.1 nodup).2.2 _ (List.mem_of_getLast? last) _
    (List.getLast_mem nonempty) rfl

theorem head?_ne_of_nodup (nodup : (middle ++ behind).Nodup) (nonempty : middle ≠ []) :
    behind.head? ≠ middle.head? := by
  rw [List.head?_eq_some_head nonempty]
  intro first
  exact (List.nodup_append.1 nodup).2.2 _ (List.head_mem nonempty) _
    (List.mem_of_head? first) rfl

/-- A cut of a row of three parts lies in front of the middle part, in it or behind it. -/
theorem cut_cases {before after : List Nat} (cut : front ++ middle ++ behind = before ++ after) :
    (∃ rest ≠ [], front = before ++ rest ∧ after = rest ++ (middle ++ behind)) ∨
      (∃ left right, middle = left ++ right ∧ before = front ++ left ∧ after = right ++ behind) ∨
      (∃ rest ≠ [], behind = rest ++ after ∧ before = front ++ (middle ++ rest)) := by
  rw [List.append_assoc] at cut
  obtain ⟨left, rfl, parts⟩ | ⟨rest, rfl, rfl⟩ := List.append_eq_append_iff.1 cut
  · obtain ⟨rest, rfl, rfl⟩ | ⟨right, rfl, rfl⟩ := List.append_eq_append_iff.1 parts
    · by_cases inside : rest = []
      · subst inside
        exact .inr (.inl ⟨middle, [], by simp⟩)
      · exact .inr (.inr ⟨rest, inside, rfl, rfl⟩)
    · exact .inr (.inl ⟨left, right, rfl, rfl, rfl⟩)
  · by_cases inside : rest = []
    · subst inside
      exact .inr (.inl ⟨[], middle, by simp⟩)
    · exact .inl ⟨rest, inside, rfl, rfl⟩

theorem Links.exists_last (links : row.Links places) (cut : places = front ++ behind) :
    row.Exists front.getLast? := fun index last =>
  links.slot index (cut ▸ List.mem_append_left behind (List.mem_of_getLast? last))

theorem Links.exists_first (links : row.Links places) (cut : places = front ++ behind) :
    row.Exists behind.head? := fun index first =>
  links.slot index (cut ▸ List.mem_append_right front (List.mem_of_head? first))

/-- Links that hold a row still do so with another middle part, if they are right within that part
and all others stay. -/
theorem Links.splice {old : List Nat} {changed : Linked}
    (links : row.Links (front ++ old ++ behind)) (nodup : (front ++ middle ++ behind).Nodup)
    (slot : ∀ index ∈ front ++ middle ++ behind, index < changed.slots.size)
    (forward : ∀ left right, middle = left ++ right →
      changed.nextOf (front ++ left).getLast? = (right ++ behind).head?)
    (backward : ∀ left right, middle = left ++ right →
      changed.before (right ++ behind).head? = (front ++ left).getLast?)
    (nextOf : ∀ place, row.Exists place → place ≠ front.getLast? →
      changed.nextOf place = row.nextOf place)
    (before : ∀ place, row.Exists place → place ≠ behind.head? →
      changed.before place = row.before place)
    (length : changed.length = (front ++ middle ++ behind).length) :
    changed.Links (front ++ middle ++ behind) := by
  have apart : (front ++ behind).Nodup := nodup.sublist (by simp)
  refine ⟨nodup, slot, ?_, ?_, length⟩
  · intro left right cut
    obtain ⟨rest, nonempty, rfl, rfl⟩ | ⟨left, right, rfl, rfl, rfl⟩ | ⟨rest, nonempty, rfl, rfl⟩ :=
      cut_cases cut
    · have same : left ++ rest ++ old ++ behind = left ++ (rest ++ (old ++ behind)) := by simp
      have other := getLast?_ne_of_nodup (List.nodup_append.1 apart).1 nonempty
      rw [nextOf _ (links.exists_last same) (by rwa [List.getLast?_append_of_ne_nil _ nonempty]),
        links.forward _ _ same, List.head?_append_of_ne_nil _ nonempty,
        List.head?_append_of_ne_nil _ nonempty]
    · exact forward left right rfl
    · have same : front ++ old ++ (rest ++ right) = front ++ old ++ rest ++ right := by simp
      have last : (front ++ (middle ++ rest)).getLast? = (front ++ old ++ rest).getLast? := by
        rw [← List.append_assoc, List.getLast?_append_of_ne_nil _ nonempty,
          List.getLast?_append_of_ne_nil _ nonempty]
      have part : (front ++ rest).Nodup := apart.sublist (by simp)
      have other := getLast?_ne_of_nodup part nonempty
      rw [last, nextOf _ (links.exists_last same), links.forward _ _ same]
      rw [List.getLast?_append_of_ne_nil _ nonempty]
      exact other.symm
  · intro left right cut
    obtain ⟨rest, nonempty, rfl, rfl⟩ | ⟨left, right, rfl, rfl, rfl⟩ | ⟨rest, nonempty, rfl, rfl⟩ :=
      cut_cases cut
    · have same : left ++ rest ++ old ++ behind = left ++ (rest ++ (old ++ behind)) := by simp
      have first : (rest ++ (middle ++ behind)).head? = (rest ++ (old ++ behind)).head? := by
        rw [List.head?_append_of_ne_nil _ nonempty, List.head?_append_of_ne_nil _ nonempty]
      have part : (rest ++ behind).Nodup := apart.sublist (by simp)
      have other := head?_ne_of_nodup part nonempty
      rw [first, before _ (links.exists_first same), links.backward _ _ same]
      rw [List.head?_append_of_ne_nil _ nonempty]
      exact other.symm
    · exact backward left right rfl
    · have same : front ++ old ++ (rest ++ right) = front ++ old ++ rest ++ right := by simp
      have other := head?_ne_of_nodup (List.nodup_append.1 apart).2.1 nonempty
      rw [before _ (links.exists_first same) (by rwa [List.head?_append_of_ne_nil _ nonempty]),
        links.backward _ _ same, ← List.append_assoc, List.getLast?_append_of_ne_nil _ nonempty,
        List.getLast?_append_of_ne_nil _ nonempty]

section

variable {previous : Option Nat}

@[simp] theorem slots_insertBetween_size :
    (row.insertBetween cell previous next).slots.size = row.slots.size + 1 := by
  simp [insertBetween]

@[simp] theorem current_insertBetween :
    (row.insertBetween cell previous next).current = row.current := by
  simp [insertBetween]

@[simp] theorem length_insertBetween :
    (row.insertBetween cell previous next).length = row.length + 1 := by
  simp [insertBetween]

theorem cellAt?_insertBetween (index : Nat) :
    (row.insertBetween cell previous next).cellAt? index
      = if index = row.slots.size then some cell else row.cellAt? index := by
  simp only [insertBetween, cellAt?_linkPrevious, cellAt?_linkNext]
  simp only [cellAt?, Array.getElem?_push]
  split <;> rfl

theorem cellAt?_insertBetween_self :
    (row.insertBetween cell previous next).cellAt? row.slots.size = some cell := by
  rw [cellAt?_insertBetween, if_pos rfl]

theorem Links.cellAt?_insertBetween (links : row.Links places) {index : Nat}
    (member : index ∈ places) :
    (row.insertBetween cell previous next).cellAt? index = row.cellAt? index := by
  rw [Linked.cellAt?_insertBetween, if_neg (Nat.ne_of_lt (links.slot index member))]

theorem Links.map_cellAt?_insertBetween (links : row.Links places) {part : List Nat}
    (inside : part ⊆ places) :
    part.map (row.insertBetween cell previous next).cellAt? = part.map row.cellAt? :=
  List.map_congr_left fun _ member => links.cellAt?_insertBetween (inside member)

theorem nextOf_insertBetween (existing : row.Exists previous) (other : Option Nat) :
    (row.insertBetween cell previous next).nextOf other
      = if other = previous then some row.slots.size
        else if other = some row.slots.size then next else row.nextOf other := by
  rw [insertBetween, nextOf_linkPrevious, nextOf_linkNext]
  · cases other with
    | none => rfl
    | some index =>
      simp only [nextOf, Array.getElem?_push, Option.some.injEq]
      split
      · rfl
      · split <;> rfl
  · intro index place
    exact Nat.lt_of_lt_of_le (existing index place) (by simp)

theorem before_insertBetween (existing : row.Exists next) (other : Option Nat) :
    (row.insertBetween cell previous next).before other
      = if other = next then some row.slots.size
        else if other = some row.slots.size then previous else row.before other := by
  rw [insertBetween, before_linkPrevious, before_linkNext]
  · cases other with
    | none => rfl
    | some index =>
      simp only [before, previousOf, Array.getElem?_push, Option.some.injEq]
      split
      · rfl
      · split <;> rfl
  · intro index place
    exact Nat.lt_of_lt_of_le (existing index place) (by simp)

end

theorem Exists.ne_size (existing : row.Exists place) : some row.slots.size ≠ place := by
  rintro rfl
  exact absurd (existing row.slots.size rfl) (Nat.lt_irrefl _)

/-- A new slot between two neighbours is linked to both. -/
theorem Links.insertBetween (links : row.Links (front ++ behind)) (cell : Cell) :
    (row.insertBetween cell front.getLast? behind.head?).Links
      (front ++ [row.slots.size] ++ behind) := by
  have last := links.exists_last rfl
  have first := links.exists_first rfl
  have fresh : row.slots.size ∉ front ++ behind := fun inside =>
    absurd (links.slot _ inside) (Nat.lt_irrefl _)
  have same : front ++ [] ++ behind = front ++ behind := by rw [List.append_nil]
  refine Links.splice (same ▸ links) ?_ ?_ ?_ ?_ ?_ ?_ ?_
  · rw [List.append_assoc, List.singleton_append, List.nodup_middle]
    exact List.nodup_cons.2 ⟨fresh, links.nodup⟩
  · intro index inside
    rw [slots_insertBetween_size]
    have earlier := links.slot index
    simp only [List.mem_append, List.mem_singleton] at inside earlier
    rcases inside with (inside | rfl) | inside
    · exact Nat.lt_succ_of_lt (earlier (.inl inside))
    · exact Nat.lt_succ_self _
    · exact Nat.lt_succ_of_lt (earlier (.inr inside))
  · intro left right parts
    rw [nextOf_insertBetween last]
    obtain ⟨rfl, rfl⟩ | ⟨rfl, rfl⟩ := List.singleton_eq_append_iff.1 parts
    · simp
    · simp [last.ne_size]
  · intro left right parts
    rw [before_insertBetween first]
    obtain ⟨rfl, rfl⟩ | ⟨rfl, rfl⟩ := List.singleton_eq_append_iff.1 parts
    · simp [first.ne_size]
    · simp
  · intro place existing other
    rw [nextOf_insertBetween last, if_neg other, if_neg existing.ne_size.symm]
  · intro place existing other
    rw [before_insertBetween first, if_neg other, if_neg existing.ne_size.symm]
  · rw [length_insertBetween, links.length]
    simp only [List.length_append, List.length_singleton]
    omega

theorem Links.walk (links : row.Links (front ++ behind)) (n : Nat) :
    row.walk n front.getLast? = ((front ++ behind.take n).getLast?, min n behind.length) := by
  induction n generalizing front behind with
  | zero => simp [Linked.walk]
  | succ n ih =>
    rw [Linked.walk, links.forward front behind rfl]
    cases behind with
    | nil => simp
    | cons index behind =>
      have further : row.Links (front ++ [index] ++ behind) := by simpa using links
      have rest := ih further
      rw [List.getLast?_concat] at rest
      simp only [List.head?_cons, rest, List.take_succ_cons, List.length_cons,
        Nat.add_min_add_right, List.append_assoc, List.singleton_append]

theorem Links.previousOf (links : row.Links (front ++ behind)) :
    row.previousOf front.getLast? = front.dropLast.getLast? := by
  rcases List.eq_nil_or_concat front with rfl | ⟨front, index, rfl⟩
  · rfl
  · have back := links.backward front (index :: behind) (by simp)
    rw [List.concat_eq_append, List.getLast?_concat, List.dropLast_concat]
    exact back

theorem Links.walkBack (links : row.Links (front ++ behind)) (n : Nat) :
    row.walkBack n front.getLast? = (front.take (front.length - n)).getLast? := by
  induction n generalizing front behind with
  | zero => simp [Linked.walkBack]
  | succ n ih =>
    rcases List.eq_nil_or_concat front with rfl | ⟨front, index, rfl⟩
    · simp [Linked.walkBack]
    · have previous := links.previousOf
      rw [List.concat_eq_append] at links previous ⊢
      rw [List.getLast?_concat, List.dropLast_concat] at previous
      rw [List.append_assoc] at links
      rw [List.getLast?_concat, Linked.walkBack, previous, ih links, List.length_append,
        List.length_singleton, Nat.add_sub_add_right,
        List.take_append_of_le_length (Nat.sub_le _ _)]

theorem Links.depth (links : row.Links (front ++ behind)) {fuel : Nat}
    (enough : front.length ≤ fuel) : row.depth fuel front.getLast? = front.length := by
  induction fuel generalizing front behind with
  | zero => rw [List.eq_nil_of_length_eq_zero (Nat.le_zero.1 enough)]; rfl
  | succ fuel ih =>
    rcases List.eq_nil_or_concat front with rfl | ⟨front, index, rfl⟩
    · rfl
    · rw [List.concat_eq_append] at links enough ⊢
      have previous := links.previousOf
      rw [List.getLast?_concat, List.dropLast_concat] at previous
      rw [List.length_append, List.length_singleton] at enough
      rw [List.append_assoc] at links
      rw [List.getLast?_concat, Linked.depth, previous, ih links (Nat.le_of_succ_le_succ enough),
        List.length_append, List.length_singleton]

/-- The row with two places linked to each other, and another number of cells. -/
def join (place behind : Option Nat) (length : Nat) (row : Linked) : Linked :=
  { (row.linkNext place behind).linkPrevious behind place with length }

@[simp] theorem slots_join_size (length : Nat) :
    (row.join place next length).slots.size = row.slots.size := by
  simp [join]

@[simp] theorem current_join (length : Nat) :
    (row.join place next length).current = row.current := by
  simp [join]

@[simp] theorem cellAt?_join (length index : Nat) :
    (row.join place next length).cellAt? index = row.cellAt? index :=
  (cellAt?_linkPrevious index).trans (cellAt?_linkNext index)

theorem nextOf_join (existing : row.Exists place) (length : Nat) (other : Option Nat) :
    (row.join place next length).nextOf other
      = if other = place then next else row.nextOf other :=
  calc (row.join place next length).nextOf other
      = ((row.linkNext place next).linkPrevious next place).nextOf other := by cases other <;> rfl
    _ = (row.linkNext place next).nextOf other := nextOf_linkPrevious other
    _ = _ := nextOf_linkNext existing other

theorem before_join (existing : row.Exists next) (length : Nat) (other : Option Nat) :
    (row.join place next length).before other
      = if other = next then place else row.before other := by
  have linked : (row.linkNext place next).Exists next := fun index slot => by
    rw [slots_linkNext_size]
    exact existing index slot
  calc (row.join place next length).before other
      = ((row.linkNext place next).linkPrevious next place).before other := by cases other <;> rfl
    _ = if other = next then place else (row.linkNext place next).before other :=
      before_linkPrevious linked other
    _ = _ := by rw [before_linkNext]

/-- Without its middle part a row goes on with the cells behind. -/
theorem Links.join (links : row.Links (front ++ middle ++ behind)) :
    (row.join front.getLast? behind.head? (row.length - middle.length)).Links
      (front ++ behind) := by
  have last := links.exists_last (List.append_assoc front middle behind)
  have first := links.exists_first rfl
  have shorter : front ++ [] ++ behind = front ++ behind := by rw [List.append_nil]
  have part : (front ++ [] ++ behind).Sublist (front ++ middle ++ behind) := by simp
  refine shorter ▸ links.splice (links.nodup.sublist part) ?_ ?_ ?_ ?_ ?_ ?_
  · intro index inside
    rw [slots_join_size]
    exact links.slot index (part.subset inside)
  · intro left right parts
    obtain ⟨rfl, rfl⟩ := List.append_eq_nil_iff.1 parts.symm
    rw [nextOf_join last, List.append_nil, if_pos rfl, List.nil_append]
  · intro left right parts
    obtain ⟨rfl, rfl⟩ := List.append_eq_nil_iff.1 parts.symm
    rw [before_join first, List.nil_append, if_pos rfl, List.append_nil]
  · intro place _ other
    rw [nextOf_join last, if_neg other]
  · intro place _ other
    rw [before_join first, if_neg other]
  · change row.length - middle.length = _
    rw [links.length]
    simp only [List.length_append, List.length_nil]
    omega

theorem removeAhead_eq (links : row.Links (front ++ behind))
    (current : row.current = front.getLast?) (n : Nat) :
    row.removeAhead n
      = ((behind.take n).length,
          if (behind.take n).length = 0 then row
          else row.join front.getLast? (behind.drop n).head?
            (row.length - (behind.take n).length)) := by
  have parts : front ++ behind = front ++ behind.take n ++ behind.drop n := by
    rw [List.append_assoc, List.take_append_drop]
  rw [Linked.removeAhead, current, links.walk n, ← List.length_take]
  simp only [links.forward _ _ parts]
  split
  next empty => rw [empty]
  next => rw [length_linkPrevious, length_linkNext, Linked.join]

theorem Links.removeAhead (links : row.Links (front ++ behind))
    (current : row.current = front.getLast?) (n : Nat) :
    (row.removeAhead n).2.Links (front ++ behind.drop n) := by
  have parts : front ++ behind = front ++ behind.take n ++ behind.drop n := by
    rw [List.append_assoc, List.take_append_drop]
  rw [removeAhead_eq links current]
  split
  next empty =>
    rw [List.eq_nil_of_length_eq_zero empty, List.append_nil] at parts
    rwa [← parts]
  next => exact (parts ▸ links).join

end MailMerge.Run.Linked
