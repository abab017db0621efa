import MailMerge.Model.Path
import MailMerge.Proofs.Text.Split
import Mathlib.Logic.Relation

set_option autoImplicit false

namespace MailMerge.Model

open Json (Value)
open Text (AllBlank)

/-- The segments that are left of the pieces of a path. -/
def effective (pieces : List Text) : List Text := (pieces.map Text.trim).filter (· ≠ [])

theorem segments_eq (path : Text) : segments path = effective (Text.splitAt '.' path) := rfl

theorem effective_append (front back : List Text) :
    effective (front ++ back) = effective front ++ effective back := by
  rw [effective, List.map_append, List.filter_append]
  rfl

theorem effective_cons_of_blank {piece : Text} (blank : AllBlank piece) (pieces : List Text) :
    effective (piece :: pieces) = effective pieces := by
  rw [effective, List.map_cons, Text.trim_eq_nil_iff.2 blank]
  rfl

theorem effective_cons_of_filled {piece : Text} (filled : ¬ AllBlank piece) (pieces : List Text) :
    effective (piece :: pieces) = piece.trim :: effective pieces := by
  have kept : piece.trim ≠ [] := fun nothing => filled (Text.trim_eq_nil_iff.1 nothing)
  rw [effective, List.map_cons, List.filter_cons_of_pos (by simpa using kept)]
  rfl

theorem segments_append (path next : Text) :
    segments (path ++ '.' :: next) = segments path ++ segments next := by
  rw [segments_eq, Text.splitAt_append_cons, effective_append]
  rfl

theorem lookup?_append (model : Value) (path next : Text) :
    lookup? model (path ++ '.' :: next)
      = (lookup? model path).bind fun inner => lookup? inner next := by
  rw [lookup?, segments_append, List.foldlM_append]
  rfl

/-- One path is the other one with a piece of padding in some place. -/
inductive Pads : Text → Text → Prop
  /-- A segment that is empty or has nothing but blanks. -/
  | segment {path padded blank : Text} (front back : List Text) (isBlank : AllBlank blank)
      (before : Text.splitAt '.' path = front ++ back)
      (after : Text.splitAt '.' padded = front ++ blank :: back) : Pads path padded
  /-- Blanks around a segment. -/
  | around {path padded piece left right : Text} (front back : List Text)
      (leftBlank : AllBlank left) (rightBlank : AllBlank right)
      (before : Text.splitAt '.' path = front ++ piece :: back)
      (after : Text.splitAt '.' padded = front ++ (left ++ piece ++ right) :: back) :
      Pads path padded

/-- One path becomes the other one when padding is added and removed. -/
def SameButPadding : Text → Text → Prop := Relation.EqvGen Pads

theorem Pads.segments_eq {path padded : Text} (pads : Pads path padded) :
    segments path = segments padded := by
  cases pads with
  | segment front back isBlank before after =>
    rw [Model.segments_eq, Model.segments_eq, before, after, effective_append, effective_append,
      effective_cons_of_blank isBlank]
  | around front back leftBlank rightBlank before after =>
    rw [Model.segments_eq, Model.segments_eq, before, after, effective_append, effective_append]
    simp only [effective, List.map_cons, Text.trim_append leftBlank rightBlank]

namespace SameButPadding

theorem trans {path other last : Text} (first : SameButPadding path other)
    (second : SameButPadding other last) : SameButPadding path last :=
  Relation.EqvGen.trans _ _ _ first second

theorem symm {path other : Text} (same : SameButPadding path other) : SameButPadding other path :=
  Relation.EqvGen.symm _ _ same

theorem segments_eq {path other : Text} (same : SameButPadding path other) :
    segments path = segments other := by
  induction same with
  | rel path padded pads => exact pads.segments_eq
  | refl path => rfl
  | symm path other _ ih => exact ih.symm
  | trans path other last _ _ first second => exact first.trans second

end SameButPadding

/-- Pieces as a path. The empty piece in front keeps the path from having no piece at all. -/
def padded (pieces : List Text) : Text := ['.'].intercalate ([] :: pieces)

theorem splitAt_padded {pieces : List Text} (free : ∀ piece ∈ pieces, '.' ∉ piece) :
    Text.splitAt '.' (padded pieces) = [] :: pieces := by
  apply Text.splitAt_intercalate (List.cons_ne_nil [] pieces)
  rw [List.forall_mem_cons]
  exact ⟨List.not_mem_nil, free⟩

theorem notMem_trim {piece : Text} (free : '.' ∉ piece) : '.' ∉ piece.trim := by
  obtain ⟨left, right, -, -, split⟩ := Text.exists_trim piece
  intro member
  rw [split] at free
  exact free (List.mem_append_left _ (List.mem_append_right _ member))

/-- Of the pieces behind those that are done, one after the other loses its padding. -/
theorem sameButPadding_effective (done pieces : List Text) (doneFree : ∀ piece ∈ done, '.' ∉ piece)
    (free : ∀ piece ∈ pieces, '.' ∉ piece) :
    SameButPadding (padded (done ++ pieces)) (padded (done ++ effective pieces)) := by
  induction pieces generalizing done with
  | nil => exact Relation.EqvGen.refl _
  | cons piece pieces ih =>
    rw [List.forall_mem_cons] at free
    have whole : ∀ other, '.' ∉ other → ∀ inside ∈ done ++ other :: pieces, '.' ∉ inside := by
      intro other otherFree inside member
      rw [List.mem_append, List.mem_cons] at member
      obtain first | rfl | last := member
      · exact doneFree inside first
      · exact otherFree
      · exact free.2 inside last
    by_cases blank : AllBlank piece
    · have without : ∀ inside ∈ done ++ pieces, '.' ∉ inside := by
        intro inside member
        exact (List.mem_append.1 member).elim (doneFree inside) (free.2 inside)
      have dropped : Pads (padded (done ++ pieces)) (padded (done ++ piece :: pieces)) :=
        .segment ([] :: done) pieces blank (splitAt_padded without)
          (splitAt_padded (whole piece free.1))
      rw [effective_cons_of_blank blank]
      exact (SameButPadding.symm (Relation.EqvGen.rel _ _ dropped)).trans (ih done doneFree free.2)
    · obtain ⟨left, right, leftBlank, rightBlank, split⟩ := Text.exists_trim piece
      have trimFree := notMem_trim free.1
      have trimmed : Pads (padded (done ++ piece.trim :: pieces))
          (padded (done ++ piece :: pieces)) := by
        refine .around ([] :: done) pieces leftBlank rightBlank
          (splitAt_padded (whole _ trimFree)) ?_
        rw [← split]
        exact splitAt_padded (whole piece free.1)
      have rest := ih (done ++ [piece.trim]) (by
        intro inside member
        rw [List.mem_append, List.mem_singleton] at member
        obtain first | rfl := member
        · exact doneFree inside first
        · exact trimFree) free.2
      rw [List.append_assoc, List.append_assoc, List.singleton_append, List.singleton_append]
        at rest
      rw [effective_cons_of_filled blank]
      exact (SameButPadding.symm (Relation.EqvGen.rel _ _ trimmed)).trans rest

/-- Without padding nothing is left of a path but its segments. -/
theorem sameButPadding_segments (path : Text) : SameButPadding path (padded (segments path)) := by
  have free : ∀ piece ∈ Text.splitAt '.' path, '.' ∉ piece :=
    fun _ member => Text.notMem_of_mem_splitAt member
  have front : Pads path (padded (Text.splitAt '.' path)) :=
    .segment [] _ .nil rfl (splitAt_padded free)
  exact SameButPadding.trans (Relation.EqvGen.rel _ _ front)
    (sameButPadding_effective [] _ (by simp) free)

theorem sameButPadding_iff {path other : Text} :
    SameButPadding path other ↔ segments path = segments other := by
  constructor
  · exact SameButPadding.segments_eq
  · intro same
    have last := sameButPadding_segments other
    rw [← same] at last
    exact (sameButPadding_segments path).trans last.symm

/-- A model in which only these segments lead to the innermost value. -/
def nested : List Text → Value
  | [] => .null
  | segment :: rest => .object [(segment, nested rest)]

theorem foldlM_step?_nested_iff {walked segments : List Text} :
    walked.foldlM step? (nested segments) = some .null ↔ walked = segments := by
  induction segments generalizing walked with
  | nil =>
    cases walked with
    | nil => exact ⟨fun _ => rfl, fun _ => rfl⟩
    | cons segment walked =>
      exact iff_of_false nofun nofun
  | cons segment segments ih =>
    cases walked with
    | nil => exact iff_of_false nofun nofun
    | cons first walked =>
      rw [List.foldlM_cons, nested, step?, Json.member?, List.cons.injEq]
      split
      · rename_i same
        rw [← ih]
        exact ⟨fun found => ⟨same, found⟩, fun found => found.2⟩
      · rename_i other
        exact iff_of_false nofun fun same => other same.1

/-- A path behind another is looked up where the other one leads, and padding is all that can be
added to a path or removed from it without a change in what some model has at its end. -/
theorem lookup?_paths :
    (∀ model path next value, lookup? model (path ++ '.' :: next) = some value ↔
      ∃ inner, lookup? model path = some inner ∧ lookup? inner next = some value) ∧
    ∀ path other, SameButPadding path other ↔
      ∀ model, lookup? model path = lookup? model other := by
  refine ⟨fun model path next value => ?_, fun path other => ?_⟩
  · rw [lookup?_append]
    exact Option.bind_eq_some_iff
  · rw [sameButPadding_iff]
    constructor
    · intro same model
      rw [lookup?, lookup?, same]
    · intro agree
      have here : lookup? (nested (segments path)) path = some .null :=
        foldlM_step?_nested_iff.2 rfl
      rw [agree] at here
      exact (foldlM_step?_nested_iff.1 here).symm

/-- Points, blanks and empty segments around two segments. -/
example :
    segments ['.', ' ', 'a', '\u00A0', '.', '.', '\u2003', '.', 'b', '.'] = [['a'], ['b']] := by
  decide

end MailMerge.Model
