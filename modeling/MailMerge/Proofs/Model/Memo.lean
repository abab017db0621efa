import MailMerge.Model.Resolver
import Mathlib.Data.Finmap

set_option autoImplicit false

namespace MailMerge.Model

/-- The entries of a memo. -/
abbrev Contents (α : Type) := Finmap fun _ : Text => α

/-- A kind of memo, by what can be done with it. -/
structure MemoOps (α σ : Type) where
  /-- A memo with room for a number of entries. -/
  new : Nat → σ
  /-- The entry of a path; looking it up may change the memo. -/
  get? : Text → σ → Option α × σ
  /-- The memo with an entry for a path. -/
  put : Text → α → σ → σ

/-- A kind of memo is a bounded map: `holds capacity memo contents` says that a memo has room for
`capacity` entries, and what they are. -/
structure MemoOps.Bounded {α σ : Type} (ops : MemoOps α σ)
    (holds : Nat → σ → Contents α → Prop) : Prop where
  new : ∀ capacity, 0 < capacity → holds capacity (ops.new capacity) ∅
  get? : ∀ capacity memo contents path, holds capacity memo contents →
    (ops.get? path memo).1 = contents.lookup path ∧
      holds capacity (ops.get? path memo).2 contents
  /-- An entry takes the place of the earlier one of its path, or free room. -/
  put : ∀ capacity memo contents path value, holds capacity memo contents →
    path ∈ contents ∨ contents.keys.card < capacity →
    holds capacity (ops.put path value memo) (contents.insert path value)
  /-- In a full memo, the entry of a new path takes the place of another one. -/
  evict : ∀ capacity memo contents path value, holds capacity memo contents →
    path ∉ contents → contents.keys.card = capacity →
    ∃ victim, victim ∈ contents ∧
      holds capacity (ops.put path value memo) ((contents.erase victim).insert path value)

theorem keys_insert {α : Type} (path : Text) (value : α) (contents : Contents α) :
    (contents.insert path value).keys = insert path contents.keys := by
  ext other
  rw [Finset.mem_insert, Finmap.mem_keys, Finmap.mem_keys, Finmap.mem_insert]

/-- A memo's entries are right answers for some of the paths that were put into it, as many as there
is room for. -/
structure Remembers {α : Type} (answer : Text → α) (capacity : Nat) (contents : Contents α)
    (inserted : List Text) : Prop where
  right : ∀ path value, contents.lookup path = some value → value = answer path
  subset : contents.keys ⊆ inserted.toFinset
  card : contents.keys.card = min capacity inserted.toFinset.card

namespace Remembers

variable {α σ : Type} {answer : Text → α} {capacity : Nat} {contents : Contents α}
  {inserted : List Text}

theorem empty (answer : Text → α) (capacity : Nat) : Remembers answer capacity ∅ [] :=
  ⟨by simp, by simp, by simp⟩

theorem right_insert (remembers : Remembers answer capacity contents inserted) (path : Text)
    {kept : Contents α} (fewer : ∀ other value, kept.lookup other = some value →
      contents.lookup other = some value) :
    ∀ other value, (kept.insert path (answer path)).lookup other = some value →
      value = answer other := by
  intro other value found
  by_cases same : other = path
  · rw [same, Finmap.lookup_insert, Option.some.injEq] at found
    rw [same, found]
  · rw [Finmap.lookup_insert_of_ne _ same] at found
    exact remembers.right other value (fewer other value found)

/-- A memo stays right when a right answer is put into it, for a new path or for one that another
thread has put in before. -/
theorem put {ops : MemoOps α σ} {holds : Nat → σ → Contents α → Prop} (bounded : ops.Bounded holds)
    {memo : σ} (has : holds capacity memo contents)
    (remembers : Remembers answer capacity contents inserted) (path : Text) :
    ∃ later, holds capacity (ops.put path (answer path) memo) later ∧
      Remembers answer capacity later (path :: inserted) := by
  obtain ⟨right, subset, card⟩ := remembers
  have pathKey : path ∈ contents ↔ path ∈ contents.keys := Finmap.mem_keys.symm
  by_cases present : path ∈ contents
  · refine ⟨_, bounded.put _ _ _ path _ has (Or.inl present), ?_⟩
    have known := subset (pathKey.1 present)
    refine ⟨right_insert ⟨right, subset, card⟩ path fun _ _ => id, ?_, ?_⟩
    · rw [keys_insert, List.toFinset_cons]
      exact Finset.insert_subset_insert path subset
    · rw [keys_insert, List.toFinset_cons, Finset.insert_eq_of_mem (pathKey.1 present),
        Finset.insert_eq_of_mem known, card]
  by_cases room : contents.keys.card < capacity
  · refine ⟨_, bounded.put _ _ _ path _ has (Or.inr room), ?_⟩
    -- With room left, nothing was ever evicted.
    have all : contents.keys = inserted.toFinset :=
      Finset.eq_of_subset_of_card_le subset (by omega)
    refine ⟨right_insert ⟨right, subset, card⟩ path fun _ _ => id, ?_, ?_⟩
    · rw [keys_insert, List.toFinset_cons, all]
    · have new : path ∉ contents.keys := mt pathKey.2 present
      rw [keys_insert, List.toFinset_cons, ← all, Finset.card_insert_of_notMem new]
      omega
  · have full : contents.keys.card = capacity := by omega
    obtain ⟨victim, inside, later⟩ := bounded.evict _ _ _ path (answer path) has present full
    have victimKey : victim ∈ contents.keys := Finmap.mem_keys.2 inside
    refine ⟨_, later, right_insert ⟨right, subset, card⟩ path ?_, ?_, ?_⟩
    · intro other value found
      by_cases same : other = victim
      · rw [same, Finmap.lookup_erase] at found
        cases found
      · rwa [Finmap.lookup_erase_ne same] at found
    · rw [keys_insert, Finmap.keys_erase, List.toFinset_cons]
      exact Finset.insert_subset_insert path ((Finset.erase_subset _ _).trans subset)
    · have new : path ∉ contents.keys.erase victim := fun member =>
        present (pathKey.2 (Finset.mem_of_mem_erase member))
      have more : inserted.toFinset.card ≤ (insert path inserted.toFinset).card :=
        Finset.card_le_card (Finset.subset_insert path _)
      have positive := Finset.card_pos.2 ⟨victim, victimKey⟩
      rw [keys_insert, Finmap.keys_erase, List.toFinset_cons, Finset.card_insert_of_notMem new,
        Finset.card_erase_of_mem victimKey]
      omega

end Remembers

namespace Memo

variable {α : Type}

/-- The memo of a resolver, by what can be done with it. -/
def ops (α : Type) : MemoOps α (Memo α) := ⟨fun capacity => ⟨capacity, []⟩, get?, put⟩

/-- What a memo holds: its list has one entry for each path. -/
structure Holds (capacity : Nat) (memo : Memo α) (contents : Contents α) : Prop where
  positive : 0 < capacity
  capacity_eq : memo.capacity = capacity
  nodup : (memo.entries.map Prod.fst).Nodup
  length_le : memo.entries.length ≤ capacity
  lookup : ∀ path value, contents.lookup path = some value ↔ (path, value) ∈ memo.entries

theorem mem_others {path other : Text} {value : α} {memo : Memo α} :
    (other, value) ∈ memo.others path ↔ (other, value) ∈ memo.entries ∧ other ≠ path := by
  simp [others]

theorem nodup_cons_others {path : Text} {value : α} {memo : Memo α}
    (nodup : (memo.entries.map Prod.fst).Nodup) :
    (((path, value) :: memo.others path).map Prod.fst).Nodup := by
  rw [List.map_cons, List.nodup_cons]
  refine ⟨?_, nodup.sublist (List.filter_sublist.map _)⟩
  rintro member
  obtain ⟨⟨other, value⟩, inside, same⟩ := List.mem_map.1 member
  exact (mem_others.1 inside).2 same

theorem length_cons_others_le {path : Text} {value old : α} {memo : Memo α}
    (present : (path, old) ∈ memo.entries) :
    ((path, value) :: memo.others path).length ≤ memo.entries.length := by
  apply List.length_filter_lt_length_iff_exists.2
  exact ⟨(path, old), present, by simp⟩

namespace Holds

variable {capacity : Nat} {memo : Memo α} {contents : Contents α}

theorem keys_eq (has : Holds capacity memo contents) :
    contents.keys = (memo.entries.map Prod.fst).toFinset := by
  ext path
  rw [Finmap.mem_keys, Finmap.mem_iff, List.mem_toFinset, List.mem_map]
  constructor
  · rintro ⟨value, found⟩
    exact ⟨(path, value), (has.lookup path value).1 found, rfl⟩
  · rintro ⟨⟨_, value⟩, member, rfl⟩
    exact ⟨value, (has.lookup _ value).2 member⟩

/-- A memo is as large as its entries are many. -/
theorem card_keys (has : Holds capacity memo contents) : contents.keys.card = memo.size := by
  rw [has.keys_eq, List.toFinset_card_of_nodup has.nodup, List.length_map, size]

theorem value_eq (has : Holds capacity memo contents) {path : Text} {value other : α}
    (first : (path, value) ∈ memo.entries) (second : (path, other) ∈ memo.entries) :
    value = other := by
  rw [← has.lookup] at first second
  rwa [first, Option.some.injEq] at second

/-- An entry goes to the front of the list when its path is looked up. -/
theorem get? (has : Holds capacity memo contents) (path : Text) :
    (memo.get? path).1 = contents.lookup path ∧
      Holds capacity (memo.get? path).2 contents := by
  unfold Memo.get?
  cases found : memo.entries.find? (·.1 = path) with
  | none =>
    refine ⟨?_, has⟩
    cases known : contents.lookup path with
    | none => rfl
    | some value =>
      have absent := List.find?_eq_none.1 found _ ((has.lookup path value).1 known)
      simp at absent
  | some entry =>
    obtain ⟨own, value⟩ := entry
    have same : own = path := by simpa using List.find?_some found
    subst same
    have member := List.mem_of_find?_eq_some found
    refine ⟨((has.lookup own value).2 member).symm, has.positive, has.capacity_eq,
      nodup_cons_others has.nodup, (length_cons_others_le member).trans has.length_le, ?_⟩
    intro other held
    rw [has.lookup, List.mem_cons, mem_others, Prod.mk.injEq]
    constructor
    · intro inside
      by_cases here : other = own
      · subst here
        exact Or.inl ⟨rfl, has.value_eq inside member⟩
      · exact Or.inr ⟨inside, here⟩
    · rintro (⟨rfl, rfl⟩ | ⟨inside, _⟩)
      · exact member
      · exact inside

/-- With room for the entry of a path, the entries of all other paths stay. -/
theorem put (has : Holds capacity memo contents) {path : Text}
    (room : path ∈ contents ∨ contents.keys.card < capacity) (value : α) :
    Holds capacity (memo.put path value) (contents.insert path value) := by
  have fits : ((path, value) :: memo.others path).length ≤ capacity := by
    rcases room with present | room
    · obtain ⟨old, known⟩ := Finmap.mem_iff.1 present
      exact (length_cons_others_le ((has.lookup path old).1 known)).trans has.length_le
    · rw [has.card_keys] at room
      exact Nat.lt_of_le_of_lt (List.length_filter_le _ _) room
  have entries : (memo.put path value).entries = (path, value) :: memo.others path := by
    rw [Memo.put, has.capacity_eq]
    exact List.take_of_length_le fits
  refine ⟨has.positive, has.capacity_eq, ?_, ?_, ?_⟩
  · rw [entries]
    exact nodup_cons_others has.nodup
  · rw [entries]
    exact fits
  · intro other held
    rw [entries, List.mem_cons, mem_others, Prod.mk.injEq]
    by_cases same : other = path
    · subst same
      simp [Finmap.lookup_insert, eq_comm]
    · rw [Finmap.lookup_insert_of_ne _ same, has.lookup]
      simp [same]

/-- A full memo gives up its last entry for a new path. -/
theorem evict (has : Holds capacity memo contents) {path : Text} (new : path ∉ contents)
    (full : contents.keys.card = capacity) (value : α) :
    ∃ victim, victim ∈ contents ∧
      Holds capacity (memo.put path value) ((contents.erase victim).insert path value) := by
  rw [has.card_keys, size] at full
  obtain ⟨positive, capacity_eq, nodup, _, lookup⟩ := has
  have absent : ∀ held, (path, held) ∉ memo.entries := fun held member =>
    new (Finmap.mem_iff.2 ⟨held, (lookup path held).2 member⟩)
  have others : memo.others path = memo.entries := by
    rw [Memo.others, List.filter_eq_self]
    rintro ⟨other, held⟩ member
    rw [decide_eq_true_eq]
    rintro rfl
    exact absent held member
  obtain ⟨front, last, split⟩ : ∃ front last, memo.entries = front ++ [last] := by
    rcases List.eq_nil_or_concat' memo.entries with empty | split
    · rw [empty] at full
      simp only [List.length_nil] at full
      omega
    · exact split
  have entries : (memo.put path value).entries = (path, value) :: front := by
    rw [Memo.put, others, capacity_eq, ← full, split, List.length_append, List.length_singleton]
    simp
  obtain ⟨victim, old⟩ := last
  have apart : ∀ held, (victim, held) ∉ front := by
    intro held member
    rw [split, List.map_append, List.nodup_append] at nodup
    exact nodup.2.2 victim (List.mem_map.2 ⟨_, member, rfl⟩) victim (by simp) rfl
  have subset : ∀ entry, entry ∈ front → entry ∈ memo.entries := by
    intro entry member
    rw [split]
    exact List.mem_append_left _ member
  refine ⟨victim, Finmap.mem_iff.2 ⟨old, (lookup victim old).2 (by simp [split])⟩, positive,
    capacity_eq, ?_, ?_, ?_⟩
  · rw [entries, List.map_cons, List.nodup_cons]
    constructor
    · intro member
      obtain ⟨⟨_, held⟩, inside, rfl⟩ := List.mem_map.1 member
      exact absent held (subset _ inside)
    · rw [split, List.map_append] at nodup
      exact nodup.sublist (List.sublist_append_left _ _)
  · rw [entries, ← full, split]
    simp
  · intro other held
    rw [entries, List.mem_cons, Prod.mk.injEq]
    by_cases same : other = path
    · subst same
      have notFront : (other, held) ∉ front := fun member => absent held (subset _ member)
      simp [Finmap.lookup_insert, notFront, eq_comm]
    rw [Finmap.lookup_insert_of_ne _ same]
    by_cases gone : other = victim
    · subst gone
      simp [same, apart held]
    · rw [Finmap.lookup_erase_ne gone, lookup, split]
      simp [same, gone]

end Holds

/-- The memo of a resolver is a bounded map. -/
theorem bounded_ops (α : Type) : (ops α).Bounded Holds where
  new := fun _ positive => ⟨positive, rfl, List.nodup_nil, Nat.zero_le _, by simp [ops]⟩
  get? := fun _ _ _ path has => has.get? path
  put := fun _ _ _ _ value has room => has.put room value
  evict := fun _ _ _ _ value has new full => has.evict new full value

end Memo

theorem model_resolve (resolver : Resolver) (path : Text) :
    (resolver.resolve path).2.model = resolver.model := by
  unfold Resolver.resolve Resolver.probe
  cases looked : resolver.memo.get? path with
  | mk hit memo => cases hit <;> rfl

end MailMerge.Model
