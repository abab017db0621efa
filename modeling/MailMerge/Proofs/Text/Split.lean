import MailMerge.Text.Blank
import Mathlib.Data.List.DropRight
import Mathlib.Data.List.Infix

set_option autoImplicit false

namespace MailMerge.Text

section

variable {separator : Char}

theorem splitAt_cons_self (separator : Char) (rest : Text) :
    splitAt separator (separator :: rest) = [] :: splitAt separator rest := by
  simp [splitAt]

theorem exists_splitAt (separator : Char) (text : Text) :
    ∃ piece pieces, splitAt separator text = piece :: pieces := by
  unfold splitAt
  split
  · exact ⟨_, _, rfl⟩
  · split
    · exact ⟨_, _, rfl⟩
    · split <;> exact ⟨_, _, rfl⟩

theorem splitAt_cons_of_ne {c : Char} {rest piece : Text} {pieces : List Text}
    (other : c ≠ separator) (split : splitAt separator rest = piece :: pieces) :
    splitAt separator (c :: rest) = (c :: piece) :: pieces := by
  rw [splitAt, if_neg other, split]

/-- Around a separator the two sides are cut on their own. -/
theorem splitAt_append_cons (separator : Char) (first second : Text) :
    splitAt separator (first ++ separator :: second)
      = splitAt separator first ++ splitAt separator second := by
  induction first with
  | nil => exact splitAt_cons_self separator second
  | cons c first ih =>
    rw [List.cons_append]
    by_cases same : c = separator
    · rw [same, splitAt_cons_self, splitAt_cons_self, ih, List.cons_append]
    · obtain ⟨piece, pieces, split⟩ := exists_splitAt separator first
      rw [split, List.cons_append] at ih
      rw [splitAt_cons_of_ne same ih, splitAt_cons_of_ne same split, List.cons_append]

theorem splitAt_of_notMem {text : Text} (free : separator ∉ text) :
    splitAt separator text = [text] := by
  induction text with
  | nil => rfl
  | cons c rest ih =>
    rw [List.mem_cons, not_or] at free
    exact splitAt_cons_of_ne (Ne.symm free.1) (ih free.2)

theorem notMem_of_mem_splitAt {text piece : Text} (member : piece ∈ splitAt separator text) :
    separator ∉ piece := by
  induction text generalizing piece with
  | nil => simp_all [splitAt]
  | cons c rest ih =>
    by_cases same : c = separator
    · rw [same, splitAt_cons_self, List.mem_cons] at member
      obtain rfl | inRest := member
      · exact List.not_mem_nil
      · exact ih inRest
    · obtain ⟨first, pieces, split⟩ := exists_splitAt separator rest
      rw [splitAt_cons_of_ne same split, List.mem_cons] at member
      rw [split] at ih
      obtain rfl | inRest := member
      · rw [List.mem_cons, not_or]
        exact ⟨Ne.symm same, ih List.mem_cons_self⟩
      · exact ih (List.mem_cons_of_mem first inRest)

/-- Pieces that are joined are found again. -/
theorem splitAt_intercalate {pieces : List Text} (nonempty : pieces ≠ [])
    (free : ∀ piece ∈ pieces, separator ∉ piece) :
    splitAt separator ([separator].intercalate pieces) = pieces := by
  induction pieces with
  | nil => exact absurd rfl nonempty
  | cons piece pieces ih =>
    have first := splitAt_of_notMem (free piece List.mem_cons_self)
    cases pieces with
    | nil => simpa using first
    | cons next pieces =>
      have rest := ih (List.cons_ne_nil next pieces) fun other member =>
        free other (List.mem_cons_of_mem piece member)
      rw [List.intercalate_cons_cons, List.append_assoc, List.singleton_append,
        splitAt_append_cons, first, rest, List.singleton_append]

end

def AllBlank (text : Text) : Prop := ∀ c ∈ text, isBlank c = true

theorem AllBlank.nil : AllBlank [] := fun _ member => absurd member List.not_mem_nil

theorem dropWhile_append_of_allBlank {left : Text} (blank : AllBlank left) (text : Text) :
    (left ++ text).dropWhile isBlank = text.dropWhile isBlank :=
  List.dropWhile_append_of_pos blank

theorem trimEnd_eq_rdropWhile (text : Text) : trimEnd text = text.rdropWhile isBlank := by
  induction text with
  | nil => rfl
  | cons c rest ih =>
    rw [trimEnd, ih, List.rdropWhile, List.rdropWhile, List.reverse_cons, List.dropWhile_append]
    cases rest.reverse.dropWhile isBlank with
    | nil => by_cases blank : isBlank c = true <;> simp [blank]
    | cons last others => simp

theorem trimEnd_append {right : Text} (blank : AllBlank right) (text : Text) :
    trimEnd (text ++ right) = trimEnd text := by
  rw [trimEnd_eq_rdropWhile, trimEnd_eq_rdropWhile, List.rdropWhile, List.rdropWhile,
    List.reverse_append, dropWhile_append_of_allBlank]
  exact fun c member => blank c (List.mem_reverse.1 member)

/-- Blanks around a text are trimmed like those in it. -/
theorem trim_append {left right : Text} (leftBlank : AllBlank left) (rightBlank : AllBlank right)
    (text : Text) : trim (left ++ text ++ right) = trim text := by
  rw [trim, trim, List.append_assoc, dropWhile_append_of_allBlank leftBlank, List.dropWhile_append]
  split
  · rename_i nothing
    rw [List.isEmpty_iff.1 nothing, List.dropWhile_eq_nil_iff.2 rightBlank]
  · exact trimEnd_append rightBlank _

/-- A text is what is left when it is trimmed, with blanks around it. -/
theorem exists_trim (text : Text) :
    ∃ left right, AllBlank left ∧ AllBlank right ∧ text = left ++ trim text ++ right := by
  have behind : ∃ right, AllBlank right ∧
      text.dropWhile isBlank = trimEnd (text.dropWhile isBlank) ++ right := by
    rw [trimEnd_eq_rdropWhile]
    exact ⟨_, fun c member => List.mem_rtakeWhile_imp member,
      List.rdropWhile_append_rtakeWhile.symm⟩
  obtain ⟨right, rightBlank, split⟩ := behind
  refine ⟨text.takeWhile isBlank, right, fun c member => List.mem_takeWhile_imp member, rightBlank,
    ?_⟩
  rw [List.append_assoc, trim, ← split, List.takeWhile_append_dropWhile]

theorem trim_eq_nil_iff {text : Text} : trim text = [] ↔ AllBlank text := by
  constructor
  · intro nothing
    obtain ⟨left, right, leftBlank, rightBlank, split⟩ := exists_trim text
    rw [nothing, List.append_nil] at split
    rw [split]
    exact fun c member => (List.mem_append.1 member).elim (leftBlank c) (rightBlank c)
  · intro blank
    have same := trim_append blank .nil []
    rw [List.append_nil, List.append_nil] at same
    exact same

end MailMerge.Text
