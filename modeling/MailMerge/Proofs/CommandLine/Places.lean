import MailMerge.CommandLine.Run
import MailMerge.Proofs.Text.Split

set_option autoImplicit false

namespace MailMerge.CommandLine

/-- Can these be the names of a file in a directory? -/
structure Named (names : List Text) : Prop where
  ne_nil : names ≠ []
  isName : ∀ name ∈ names, isName name = true
  notMem : ∀ name ∈ names, '/' ∉ name

theorem named_namesOf {path : Text} (some : namesOf path ≠ []) : Named (namesOf path) :=
  ⟨some, fun _ member => (List.mem_filter.1 member).2,
    fun _ member => Text.notMem_of_mem_splitAt (List.mem_filter.1 member).1⟩

theorem ne_nil_of_isName {name : Text} (named : isName name = true) : name ≠ [] := by
  rintro rfl
  cases named

theorem enter_of_isName {segment : Text} (named : isName segment = true) (directory : List Text) :
    enter directory segment = segment :: directory := by
  have notParent : segment ≠ parentSegment := by
    rintro rfl
    cases named
  rw [enter, if_neg notParent, if_pos named]

theorem foldl_enter_of_names {names : List Text} (named : ∀ name ∈ names, isName name = true)
    (directory : List Text) : names.foldl enter directory = names.reverse ++ directory := by
  induction names generalizing directory with
  | nil => rfl
  | cons name names ih =>
    rw [List.forall_mem_cons] at named
    rw [List.foldl_cons, enter_of_isName named.1, ih named.2, List.reverse_cons, List.append_assoc,
      List.singleton_append]

namespace Named

variable {names : List Text}

theorem segmentsOf_joinNames (named : Named names) : segmentsOf (joinNames names) = names :=
  Text.splitAt_intercalate named.ne_nil named.notMem

/-- Below a directory, the names come behind the segments of the directory's path. A separator at
the end of this path is no segment. -/
theorem foldl_enter_below (named : Named names) (directory : Text) (start : List Text) :
    (segmentsOf (below directory names)).foldl enter start
      = names.reverse ++ (segmentsOf directory).foldl enter start := by
  rw [← foldl_enter_of_names named.isName]
  have behind : ∀ front, segmentsOf (front ++ '/' :: joinNames names)
      = segmentsOf front ++ names := by
    intro front
    rw [segmentsOf, Text.splitAt_append_cons]
    exact congrArg (_ ++ ·) named.segmentsOf_joinNames
  unfold below
  split
  · rename_i ends
    obtain rfl | last := ends
    · rw [List.nil_append, named.segmentsOf_joinNames]
      rfl
    · obtain ⟨front, rfl⟩ := List.getLast?_eq_some_iff.1 last
      have ended : segmentsOf (front ++ ['/']) = segmentsOf front ++ [[]] :=
        Text.splitAt_append_cons '/' front []
      rw [List.append_assoc, List.singleton_append, behind, ended, List.foldl_append,
        List.foldl_append]
      rfl
  · rw [behind, List.foldl_append]

theorem isAbsolute_below (named : Named names) (directory : Text) :
    isAbsolute (below directory names) = isAbsolute directory := by
  cases directory with
  | cons c rest =>
    unfold below
    split <;> rfl
  | nil =>
    have relative : isAbsolute (joinNames names) = false := by
      obtain ⟨name, rest, rfl⟩ := List.exists_cons_of_ne_nil named.ne_nil
      obtain ⟨c, name, rfl⟩ := List.exists_cons_of_ne_nil
        (ne_nil_of_isName (named.isName name List.mem_cons_self))
      have other : c ≠ '/' := fun same =>
        named.notMem _ List.mem_cons_self (same ▸ List.mem_cons_self)
      cases rest with
      | nil => simp [joinNames, isAbsolute, other]
      | cons => simp [joinNames, isAbsolute, other, List.intercalate_cons_cons]
    exact relative

end Named

namespace FileSystem

/-- Names joined to the path of a directory lead on from where this path leads. -/
theorem place_below (system : FileSystem) {names : List Text} (named : Named names)
    (directory : Text) :
    system.place (below directory names) = system.place directory ++ names := by
  have start : system.origin (below directory names) = system.origin directory := by
    rw [origin, origin, named.isAbsolute_below]
  rw [place, place, start, named.foldl_enter_below, List.reverse_append, List.reverse_reverse]

theorem place_congr {system other : FileSystem} (same : other.working = system.working)
    (path : Text) : other.place path = system.place path := by
  rw [place, place, origin, origin, same]

/-- When the directories on the way can be made, segments lead to their place. -/
theorem reach_eq_ok {system : FileSystem} {passed : List (List Text)} {directory : List Text}
    {segments names : List Text} (reached : system.reach passed directory segments = .ok names) :
    names = (segments.foldl enter directory).reverse := by
  fun_induction reach system passed directory segments with
  | case1 => cases reached
  | case2 passed directory segment target blocked => cases reached
  | case3 passed directory segment target free =>
    simp only [Bool.or_eq_true, not_or, Bool.not_eq_true', Bool.not_eq_false] at free
    rw [List.foldl_cons, enter_of_isName free.1.1]
    exact (Except.ok.inj reached).symm
  | case4 => cases reached
  | case5 passed directory segment rest notLast inner free ih => exact ih reached

/-- A write that succeeds puts the file to the place of its path. -/
theorem write_eq_ok {system later : FileSystem} {path : Text} {bytes : List UInt8}
    (written : system.write path bytes = .ok later) :
    later = { system with tree := system.tree.put (system.place path) bytes } := by
  unfold write at written
  cases reached : system.reach [] (system.origin path) (segmentsOf path) with
  | error problem =>
    rw [reached] at written
    cases written
  | ok names =>
    rw [reached] at written
    rw [place, ← reach_eq_ok reached]
    exact (Except.ok.inj written).symm

end FileSystem

/-- A file that is put into a tree takes the place of the one with the same names. -/
theorem FileTree.file?_put (tree : FileTree) (names other : List Text) (bytes : List UInt8) :
    (tree.put names bytes).file? other
      = if other = names then some bytes else tree.file? other := by
  have others :
      (tree.files.filter fun entry => entry.1 ≠ names).find? (fun entry => entry.1 = other)
      = if other = names then none else tree.files.find? fun entry => entry.1 = other := by
    rw [List.find?_filter]
    split
    · rename_i same
      rw [List.find?_eq_none]
      simp [same]
    · rename_i apart
      congr 1
      funext entry
      by_cases here : entry.1 = other <;> simp [here, apart]
  rw [file?, put, List.find?_append, others, file?]
  split
  · rename_i same
    simp [same]
  · rename_i apart
    simp [Ne.symm apart]

end MailMerge.CommandLine
