import Mathlib.Algebra.GroupWithZero.Nat
import MailMerge.Proofs.Fill.Groups
import MailMerge.Proofs.Fill.KeptFrame

set_option autoImplicit false

namespace MailMerge.Fill

open Markup (Element)

section

variable (guide : Guide) (resolve : Text → Option Text)

/-- What filling the group gives when nothing else is filled. -/
def Group.alone (group : Group) : Walked (List Element) :=
  (guide.fillGroup group.paragraphs).run resolve

/-- The paths that are asked for when the group is filled alone. -/
def Group.askedAlone (group : Group) : List Text :=
  (guide.fillGroup group.paragraphs).asked resolve

def fillAll (groups : List Group) (elements : List Element) : List Element :=
  groups.foldl (fun elements group => group.put (group.alone guide resolve).result elements)
    elements

/-- How elements are after the groups `done` were filled and the groups `left` were not. -/
structure Filled (done left : List Group) (before after : List Element) : Prop where
  result : after = fillAll guide resolve done before
  length : after.length = before.length
  filled : ∀ group, group ∈ done → group.content after = (group.alone guide resolve).result
  kept : ∀ group, group ∈ left → group.content after = group.paragraphs
  /-- An element outside of the filled groups keeps all but its children, and their number. -/
  frame : ∀ index path element, (before[index]?).bind (descendant? path) = some element →
    (∀ group, group ∈ done → ¬ group.Holds (index :: path)) →
      ∃ children,
        (after[index]?).bind (descendant? path) = some { element with children := children } ∧
        children.length = element.children.length

/-- How a walk went: it filled the groups `done`, and if a group is left, the first one failed. -/
structure Went (done left : List Group) (before : List Element) (walked : Walked (List Element))
    (asked : List Text) : Prop where
  tree : Filled guide resolve done left before walked.result
  succeeded : ∀ group, group ∈ done → (group.alone guide resolve).failure = none
  failure : walked.failure = left.head?.bind fun group => (group.alone guide resolve).failure
  stopped : walked.failure = none → left = []
  asked : asked = (done ++ left.take 1).flatMap (Group.askedAlone guide resolve)

end

section

variable {guide : Guide} {resolve : Text → Option Text}

theorem with_own_children (element : Element) :
    Element.mk element.name element.attributes element.data element.children element.selfClosing
      = element := by
  cases element
  rfl

theorem alone_inside (index : Nat) (group : Group) :
    (group.inside index).alone guide resolve = group.alone guide resolve := rfl

theorem alone_behind (count : Nat) (group : Group) :
    (group.behind count).alone guide resolve = group.alone guide resolve := by
  rw [Group.alone, Group.alone, Group.paragraphs_behind]

theorem askedAlone_behind (count : Nat) (group : Group) :
    (group.behind count).askedAlone guide resolve = group.askedAlone guide resolve := by
  rw [Group.askedAlone, Group.askedAlone, Group.paragraphs_behind]

theorem length_alone (resolve : Text → Option Text) {elements : List Element} {group : Group}
    (sound : Visits.Sound guide elements group) :
    (group.alone guide resolve).result.length = group.paragraphs.length :=
  guide.length_result_fillGroup resolve sound.all

theorem fillAll_inside (groups : List Group) (element : Element) :
    fillAll guide resolve (groups.map (Group.inside 0)) [element]
      = [{ element with children := fillAll guide resolve groups element.children }] := by
  induction groups generalizing element with
  | nil => exact congrArg (fun element => [element]) (with_own_children element).symm
  | cons group groups ih =>
    rw [List.map_cons, fillAll, List.foldl_cons, ← fillAll, alone_inside, Group.put_inside, ih]
    rfl

theorem fillAll_append_left {groups : List Group} {front : List Element}
    (fits : ∀ group, group ∈ groups → group.Fits front.length)
    (same : ∀ group, group ∈ groups →
      (group.alone guide resolve).result.length = group.paragraphs.length) (rest : List Element) :
    fillAll guide resolve groups (front ++ rest) = fillAll guide resolve groups front ++ rest := by
  induction groups generalizing front with
  | nil => rfl
  | cons group groups ih =>
    have here := fits group List.mem_cons_self
    have length := Group.length_put here (same group List.mem_cons_self)
    rw [fillAll, List.foldl_cons, Group.put_append_left _ rest here, ← fillAll,
      ih (fun other member => length ▸ fits other (List.mem_cons_of_mem _ member))
        (fun other member => same other (List.mem_cons_of_mem _ member))]
    rfl

theorem fillAll_behind (groups : List Group) (front rest : List Element) :
    fillAll guide resolve (groups.map (Group.behind front.length)) (front ++ rest)
      = front ++ fillAll guide resolve groups rest := by
  induction groups generalizing rest with
  | nil => rfl
  | cons group groups ih =>
    rw [List.map_cons, fillAll, List.foldl_cons, ← fillAll, alone_behind, Group.put_append_right,
      ih]
    rfl

namespace Filled

/-- Nothing was filled. -/
theorem untouched {left : List Group} {elements : List Element}
    (stands : ∀ group, group ∈ left → group.content elements = group.paragraphs) :
    Filled guide resolve [] left elements elements :=
  ⟨rfl, rfl, by simp, stands, fun _ _ element there _ =>
    ⟨element.children, by rw [there, with_own_children], rfl⟩⟩

/-- A group that is all there is was filled. -/
theorem whole {paragraphs : List Element}
    (all : ∀ element, element ∈ paragraphs → guide.isParagraph element = true) :
    Filled guide resolve [⟨[], 0, paragraphs⟩] [] paragraphs
      ((guide.fillGroup paragraphs).run resolve).result := by
  have length := guide.length_result_fillGroup resolve all
  refine ⟨?_, length, ?_, by simp, ?_⟩
  · simp [fillAll, Group.put, changeAt, Group.alone]
  · intro group member
    obtain rfl := List.mem_singleton.1 member
    simp only [Group.content, childrenAt, List.drop_zero, ← length, List.take_length]
    rfl
  · intro index path element there outside
    obtain ⟨paragraph, member, _⟩ := Option.bind_eq_some_iff.1 there
    have inside : index < paragraphs.length := (List.getElem?_eq_some_iff.1 member).1
    refine absurd ?_ (outside _ List.mem_cons_self)
    exact ⟨index, path, rfl, Nat.zero_le _, by simpa using inside⟩

theorem inside {done left : List Group} {element : Element} {children : List Element}
    (filled : Filled guide resolve done left element.children children) :
    Filled guide resolve (done.map (Group.inside 0)) (left.map (Group.inside 0)) [element]
      [{ element with children := children }] := by
  refine ⟨?_, rfl, ?_, ?_, ?_⟩
  · rw [fillAll_inside, ← filled.result]
  · intro group member
    obtain ⟨below, inDone, rfl⟩ := List.mem_map.1 member
    rw [Group.content_inside, alone_inside]
    exact filled.filled below inDone
  · intro group member
    obtain ⟨below, inLeft, rfl⟩ := List.mem_map.1 member
    rw [Group.content_inside, Group.paragraphs_inside]
    exact filled.kept below inLeft
  · intro index path other there outside
    cases index with
    | succ index => simp at there
    | zero =>
      cases path with
      | nil =>
        obtain rfl : element = other := by simpa [descendant?] using there
        exact ⟨children, rfl, filled.length⟩
      | cons index path =>
        refine filled.frame index path other there fun group member holds => ?_
        exact outside _ (List.mem_map_of_mem member) ((Group.holds_inside_iff 0 group _).2 holds)

theorem append {done left others rest : List Group} {front behind front' behind' : List Element}
    (sound : ∀ group, group ∈ done ++ left → Visits.Sound guide front group)
    (first : Filled guide resolve done left front front')
    (second : Filled guide resolve others rest behind behind') :
    Filled guide resolve (done ++ others.map (Group.behind front.length))
      (left ++ rest.map (Group.behind front.length)) (front ++ behind) (front' ++ behind') := by
  have inDone := fun group (member : group ∈ done) => sound group (List.mem_append_left left member)
  have fits : ∀ group, group ∈ done ++ left → group.Fits front'.length := fun group member =>
    first.length ▸ (sound group member).fits
  refine ⟨?_, by simp [first.length, second.length], ?_, ?_, ?_⟩
  · have frontFilled := fillAll_append_left (fun group member => (inDone group member).fits)
      (fun group member => length_alone resolve (inDone group member)) behind
    rw [fillAll, List.foldl_append, ← fillAll, ← fillAll, frontFilled, ← first.result,
      ← first.length, fillAll_behind, ← second.result]
  · intro group member
    rcases List.mem_append.1 member with here | shifted
    · rw [Group.content_append_left behind' (fits group (List.mem_append_left left here))]
      exact first.filled group here
    · obtain ⟨other, inOthers, rfl⟩ := List.mem_map.1 shifted
      rw [← first.length, Group.content_append_right, alone_behind]
      exact second.filled other inOthers
  · intro group member
    rcases List.mem_append.1 member with here | shifted
    · rw [Group.content_append_left behind' (fits group (List.mem_append_right done here))]
      exact first.kept group here
    · obtain ⟨other, inRest, rfl⟩ := List.mem_map.1 shifted
      rw [← first.length, Group.content_append_right, Group.paragraphs_behind]
      exact second.kept other inRest
  · intro index path element there outside
    rcases Nat.lt_or_ge index front.length with inFront | later
    · rw [List.getElem?_append_left inFront] at there
      rw [List.getElem?_append_left (first.length ▸ inFront)]
      exact first.frame index path element there fun group member =>
        outside group (List.mem_append_left _ member)
    · obtain ⟨rank, rfl⟩ := Nat.exists_eq_add_of_le' later
      rw [List.getElem?_append_right later, Nat.add_sub_cancel] at there
      rw [List.getElem?_append_right (first.length ▸ later), first.length, Nat.add_sub_cancel]
      refine second.frame rank path element there fun group member holds => ?_
      exact outside _ (List.mem_append_right _ (List.mem_map_of_mem member))
        ((Group.holds_behind_iff front.length group rank path).2 holds)

end Filled

theorem flatMap_askedAlone_inside (groups : List Group) (index : Nat) :
    (groups.map (Group.inside index)).flatMap (Group.askedAlone guide resolve)
      = groups.flatMap (Group.askedAlone guide resolve) := List.flatMap_map _ _ groups

theorem flatMap_askedAlone_behind (groups : List Group) (count : Nat) :
    (groups.map (Group.behind count)).flatMap (Group.askedAlone guide resolve)
      = groups.flatMap (Group.askedAlone guide resolve) := by
  rw [List.flatMap_map]
  exact congrArg (List.flatMap · groups) (funext (askedAlone_behind count))

/-- A group fails with the error of its pass. -/
theorem Guide.failure_fillGroup_eq_some_iff {group : List Element} {error : Error} :
    ((guide.fillGroup group).run resolve).failure = some error ↔
      (guide.passed resolve group).outcome = .error error := by
  cases outcome : (guide.passed resolve group).outcome with
  | error other =>
    rw [Guide.run_fillGroup_of_error outcome]
    simp
  | ok tally =>
    have success : ((guide.fillGroup group).run resolve).failure = none := by
      by_cases empty : guide.row group = []
      · rw [Guide.fillGroup_of_row_eq_nil empty]
        rfl
      · rw [Guide.run_fillGroup_of_ok empty outcome]
    rw [success]
    simp

namespace Went

/-- A group that is all there is was filled, or its pass failed. -/
theorem exists_of_group {paragraphs : List Element}
    (all : ∀ element, element ∈ paragraphs → guide.isParagraph element = true) :
    ∃ done left, [⟨[], 0, paragraphs⟩] = done ++ left ∧
      Went guide resolve done left paragraphs ((guide.fillGroup paragraphs).run resolve)
        ((guide.fillGroup paragraphs).asked resolve) := by
  have asked : (guide.fillGroup paragraphs).asked resolve
      = [⟨[], 0, paragraphs⟩].flatMap (Group.askedAlone guide resolve) := by
    simp [Group.askedAlone]
  cases failure : ((guide.fillGroup paragraphs).run resolve).failure with
  | none =>
    exact ⟨[⟨[], 0, paragraphs⟩], [], rfl, .whole all, by simpa [Group.alone] using failure,
      failure, fun _ => rfl, asked⟩
  | some error =>
    have failed := Guide.run_fillGroup_of_error (Guide.failure_fillGroup_eq_some_iff.1 failure)
    refine ⟨[], [⟨[], 0, paragraphs⟩], rfl, ?_, by simp, rfl, ?_, asked⟩
    · rw [failed]
      exact .untouched fun group member => by
        obtain rfl := List.mem_singleton.1 member
        exact List.take_length
    · rw [failure]
      simp

theorem inside {done left : List Group} {element : Element} {walked : Walked (List Element)}
    {asked : List Text} (went : Went guide resolve done left element.children walked asked) :
    Went guide resolve (done.map (Group.inside 0)) (left.map (Group.inside 0)) [element]
      (walked.map fun children => [{ element with children := children }]) asked := by
  refine ⟨went.tree.inside, ?_, ?_, ?_, ?_⟩
  · intro group member
    obtain ⟨below, inDone, rfl⟩ := List.mem_map.1 member
    exact went.succeeded below inDone
  · rw [Walked.map, went.failure]
    cases left <;> rfl
  · intro success
    rw [went.stopped success, List.map_nil]
  · rw [← List.map_take, ← List.map_append, flatMap_askedAlone_inside]
    exact went.asked

variable {done left others rest : List Group} {front behind : List Element}
  {walked next : Walked (List Element)} {asked more : List Text}
  (sound : ∀ group, group ∈ done ++ left → Visits.Sound guide front group)
  (first : Went guide resolve done left front walked asked)
include sound first

/-- The walk through the front did not fail, and goes on. -/
theorem append (success : walked.failure = none)
    (second : Went guide resolve others rest behind next more) :
    Went guide resolve (done ++ others.map (Group.behind front.length))
      (left ++ rest.map (Group.behind front.length)) (front ++ behind)
      (walked.join (· ++ ·) next) (asked ++ more) := by
  obtain rfl := first.stopped success
  refine ⟨first.tree.append sound second.tree, ?_, ?_, ?_, ?_⟩
  · intro group member
    rcases List.mem_append.1 member with here | shifted
    · exact first.succeeded group here
    · obtain ⟨other, inOthers, rfl⟩ := List.mem_map.1 shifted
      rw [alone_behind]
      exact second.succeeded other inOthers
  · rw [Walked.join, second.failure]
    cases rest with
    | nil => rfl
    | cons other rest => simp [alone_behind]
  · intro none
    rw [second.stopped none, List.map_nil, List.append_nil]
  · rw [first.asked, second.asked, ← flatMap_askedAlone_behind (others ++ rest.take 1) front.length,
      ← List.flatMap_append]
    simp [List.map_take]

/-- The walk through the front failed, and stops. -/
theorem append_of_failure {error : Error} (failed : walked.failure = some error)
    (sound' : ∀ group, group ∈ others → Visits.Sound guide behind group) :
    Went guide resolve done (left ++ others.map (Group.behind front.length)) (front ++ behind)
      (walked.map fun elements => elements ++ behind) asked := by
  have untouched : Filled guide resolve [] others behind behind :=
    .untouched fun group member => (sound' group member).stands
  have tree := first.tree.append sound untouched
  rw [List.map_nil, List.append_nil] at tree
  cases left with
  | nil =>
    have none := first.failure
    rw [failed] at none
    cases none
  | cons failing left =>
    refine ⟨tree, first.succeeded, first.failure, ?_, first.asked⟩
    intro none
    rw [Walked.map, failed] at none
    cases none

end Went

/-- A walk fills its groups in order, up to the first one that fails. -/
theorem Visits.exists_went {elements : List Element} {groups : List Group}
    {work : Dialogue (Walked (List Element))} (visits : Visits guide elements groups work) :
    ∃ done left, groups = done ++ left ∧
      Went guide resolve done left elements (work.run resolve) (work.asked resolve) := by
  induction visits with
  | @alone elements walked same success counts =>
    refine ⟨[], [], rfl, ?_, by simp, success, fun _ => rfl, rfl⟩
    rw [Dialogue.run_done, same]
    exact .untouched (by simp)
  | @group paragraphs all =>
    cases paragraphs with
    | nil =>
      have nothing : guide.fillGroup [] = .done (.unchanged []) :=
        Guide.fillGroup_of_row_eq_nil rfl
      rw [nothing]
      exact ⟨[], [], rfl, .untouched (by simp), by simp, rfl, fun _ => rfl, rfl⟩
    | cons paragraph others => exact Went.exists_of_group all
  | inside children ih =>
    obtain ⟨done, left, rfl, went⟩ := ih
    refine ⟨_, _, List.map_append, ?_⟩
    rw [Dialogue.run_bind, Dialogue.asked_bind, Dialogue.asked_done, List.append_nil]
    exact went.inside
  | @append front behind groups others work next first second firstWent secondWent =>
    obtain ⟨done, left, rfl, firstWent⟩ := firstWent
    rw [Dialogue.run_bind, Dialogue.asked_bind, run_followedBy, asked_followedBy]
    cases failure : (work.run resolve).failure with
    | none =>
      obtain ⟨others, rest, rfl, secondWent⟩ := secondWent
      obtain rfl := firstWent.stopped failure
      refine ⟨_, _, ?_, firstWent.append first.sound failure secondWent⟩
      simp
    | some error =>
      refine ⟨done, _, List.append_assoc _ _ _, ?_⟩
      rw [Option.isSome_some, if_pos rfl, if_pos rfl, List.append_nil]
      exact firstWent.append_of_failure first.sound failure second.sound

end

/-- Does a run stand in one of the paragraphs? -/
def Guide.holdsRun (guide : Guide) (paragraphs : List Element) : Bool :=
  paragraphs.any fun paragraph => paragraph.children.any (Element.isNamed guide.vocabulary.run)

theorem cellsOfParagraph_eq_nil_iff (vocabulary : Vocabulary) (index : Nat) (paragraph : Element) :
    Run.cellsOfParagraph vocabulary index paragraph = [] ↔
      paragraph.children.any (Element.isNamed vocabulary.run) = false := by
  rw [Run.cellsOfParagraph, List.flatMap_eq_nil_iff, List.any_eq_false]
  constructor
  · intro empty child member isRun
    obtain ⟨place, there⟩ := List.mem_iff_getElem?.1 member
    have none := empty (child, place) (List.mk_mem_zipIdx_iff_getElem?.2 there)
    dsimp only at none
    rw [if_pos isRun] at none
    exact Run.cellsOfRun_ne_nil vocabulary index place child none
  · rintro absent ⟨child, place⟩ indexed
    have member := List.mem_of_getElem? (List.mk_mem_zipIdx_iff_getElem?.1 indexed)
    exact if_neg (absent child member)

/-- A group without runs has no row. -/
theorem Guide.row_eq_nil_iff {guide : Guide} {group : List Element}
    (paragraphs : ∀ element, element ∈ group → guide.isParagraph element = true) :
    guide.row group = [] ↔ guide.holdsRun group = false := by
  rw [row, Run.flatten, Run.leadingParagraphs_eq_self paragraphs, List.flatMap_eq_nil_iff, holdsRun,
    List.any_eq_false]
  constructor
  · intro empty paragraph member
    obtain ⟨place, there⟩ := List.mem_iff_getElem?.1 member
    have none := empty (paragraph, place) (List.mk_mem_zipIdx_iff_getElem?.2 there)
    rw [(cellsOfParagraph_eq_nil_iff guide.vocabulary place paragraph).1 none]
    simp
  · rintro absent ⟨paragraph, place⟩ indexed
    have member := List.mem_of_getElem? (List.mk_mem_zipIdx_iff_getElem?.1 indexed)
    exact (cellsOfParagraph_eq_nil_iff guide.vocabulary place paragraph).2
      (Bool.eq_false_iff.2 (absent paragraph member))

section

variable {guide : Guide} {resolve : Text → Option Text}

theorem containers_alone {elements : List Element} {group : Group}
    (sound : Visits.Sound guide elements group) :
    (group.alone guide resolve).report.containers
      = if guide.holdsRun group.paragraphs then 1 else 0 := by
  have empty := Guide.row_eq_nil_iff sound.all
  rw [Group.alone]
  by_cases holds : guide.holdsRun group.paragraphs = true
  · have filled : guide.row group.paragraphs ≠ [] := fun none => by
      rw [empty.1 none] at holds
      cases holds
    rw [if_pos holds]
    cases outcome : (guide.passed resolve group.paragraphs).outcome with
    | error error => rw [Guide.run_fillGroup_of_error outcome]
    | ok tally => rw [Guide.run_fillGroup_of_ok filled outcome]
  · rw [if_neg holds, Guide.fillGroup_of_row_eq_nil (empty.2 (Bool.eq_false_iff.2 holds))]
    rfl

/-- The groups that count as containers are those with a run. -/
theorem sum_containers_alone {elements : List Element} {groups : List Group}
    (sound : ∀ group, group ∈ groups → Visits.Sound guide elements group) :
    (groups.map fun group => (group.alone guide resolve).report.containers).sum
      = groups.countP (fun group => guide.holdsRun group.paragraphs) := by
  induction groups with
  | nil => rfl
  | cons group groups ih =>
    rw [List.map_cons, List.sum_cons, containers_alone (sound group List.mem_cons_self),
      ih (fun other member => sound other (List.mem_cons_of_mem _ member)), List.countP_cons,
      Nat.add_comm]

/-- What is counted by groups is added up over the groups of a walk. -/
theorem Visits.count_report (count : Report → Nat)
    (add : ∀ first second : Report, count (first + second) = count first + count second)
    (nothing : ∀ skipped, count ⟨0, 0, 0, skipped⟩ = 0) {elements : List Element}
    {groups : List Group} {work : Dialogue (Walked (List Element))}
    (visits : Visits guide elements groups work) (success : (work.run resolve).failure = none) :
    count (work.run resolve).report
      = (groups.map fun group => count (group.alone guide resolve).report).sum := by
  induction visits with
  | alone same succeeded counts =>
    rw [Dialogue.run_done, counts, nothing]
    rfl
  | @group paragraphs all =>
    cases paragraphs with
    | nil =>
      rw [Guide.fillGroup_of_row_eq_nil rfl]
      exact nothing 0
    | cons paragraph others => exact (Nat.add_zero _).symm
  | inside children ih =>
    rw [Dialogue.run_bind] at success ⊢
    rw [List.map_map]
    exact ih success
  | @append front behind groups others work next first second firstCount secondCount =>
    rw [Dialogue.run_bind, run_followedBy] at success ⊢
    cases failure : (work.run resolve).failure with
    | some error =>
      rw [failure, Option.isSome_some, if_pos rfl, Walked.map, failure] at success
      cases success
    | none =>
      rw [failure, Option.isSome_none, if_neg Bool.false_ne_true] at success
      rw [Option.isSome_none, if_neg Bool.false_ne_true, List.map_append, List.sum_append,
        List.map_map]
      simp only [Function.comp_def, alone_behind]
      rw [← firstCount failure, ← secondCount success]
      exact add _ _

end

namespace Guide

section

variable (guide : Guide) (resolve : Text → Option Text) (root : Element)

/-- What a walk that fills all its groups makes of an element. -/
structure WalkFills (groups : List Group) : Prop where
  tree : ∃ children, ((guide.walk root).run resolve).result = { root with children := children } ∧
    Filled guide resolve groups [] root.children children
  succeeded : ∀ group, group ∈ groups → (group.alone guide resolve).failure = none
  containers : ((guide.walk root).run resolve).report.containers
    = groups.countP (fun group => guide.holdsRun group.paragraphs)
  replaced : ((guide.walk root).run resolve).report.replaced
    = (groups.map fun group => (group.alone guide resolve).report.replaced).sum
  unresolved : ((guide.walk root).run resolve).report.unresolved
    = (groups.map fun group => (group.alone guide resolve).report.unresolved).sum
  asked : (guide.walk root).asked resolve = groups.flatMap (Group.askedAlone guide resolve)

/-- What a walk makes of an element when it ends with the error of the group `failing`, with the
groups `done` in front of it and the groups `left` behind it. -/
structure WalkStops (done : List Group) (failing : Group) (left : List Group) (error : Error) :
    Prop where
  tree : ∃ children, ((guide.walk root).run resolve).result = { root with children := children } ∧
    Filled guide resolve done (failing :: left) root.children children
  succeeded : ∀ group, group ∈ done → (group.alone guide resolve).failure = none
  failed : (guide.passed resolve failing.paragraphs).outcome = .error error
  asked : (guide.walk root).asked resolve
    = (done ++ [failing]).flatMap (Group.askedAlone guide resolve)

section

variable {guide root} {groups : List Group}
  (walks : Visits.One guide root groups (guide.walk root))
include walks

theorem exists_went_of_visits : ∃ done left inner, groups = done ++ left ∧
    Visits guide root.children groups inner ∧
      Went guide resolve done left root.children (inner.run resolve)
        ((guide.walk root).asked resolve) ∧
      (guide.walk root).run resolve
        = (inner.run resolve).map fun children => { root with children := children } := by
  obtain ⟨inner, visits, same⟩ := walks
  obtain ⟨done, left, cut, went⟩ : ∃ done left, groups = done ++ left ∧
      Went guide resolve done left root.children (inner.run resolve) (inner.asked resolve) :=
    visits.exists_went
  refine ⟨done, left, inner, cut, visits, ?_, ?_⟩
  · rw [same, Dialogue.asked_bind, Dialogue.asked_done, List.append_nil]
    exact went
  · rw [same, Dialogue.run_bind]
    rfl

variable {resolve} in
/-- A walk that goes through groups and succeeds fills them. -/
theorem fills_of_visits (success : ((guide.walk root).run resolve).failure = none) :
    guide.WalkFills resolve root groups := by
  obtain ⟨done, left, inner, rfl, visits, went, walked⟩ := exists_went_of_visits resolve walks
  have innerSuccess : (inner.run resolve).failure = none := by
    rw [walked] at success
    exact success
  obtain rfl := went.stopped innerSuccess
  rw [List.append_nil] at visits ⊢
  refine ⟨⟨_, congrArg Walked.result walked, went.tree⟩, went.succeeded, ?_, ?_, ?_, ?_⟩
  · rw [walked, ← sum_containers_alone visits.sound]
    exact visits.count_report Report.containers (fun _ _ => rfl) (fun _ => rfl) innerSuccess
  · rw [walked]
    exact visits.count_report Report.replaced (fun _ _ => rfl) (fun _ => rfl) innerSuccess
  · rw [walked]
    exact visits.count_report Report.unresolved (fun _ _ => rfl) (fun _ => rfl) innerSuccess
  · rw [went.asked, List.take_nil, List.append_nil]

end

/-- A walk that succeeds fills exactly the groups that the policy names, each as if it were filled
alone, in document order, and leaves everything else as it was. The report adds up the groups. -/
theorem walk_fills_groups (success : ((guide.walk root).run resolve).failure = none) :
    ∃ groups, guide.Lists root.children groups ∧ guide.WalkFills resolve root groups := by
  obtain ⟨groups, lists, walks⟩ := guide.exists_visits_walk root
  exact ⟨groups, lists, fills_of_visits walks success⟩

/-- A walk that fails has filled exactly the groups in front of the first one that fails, each as
if it were filled alone, and ends with the error of that group's own pass. This group, the groups
behind it and everything outside of groups stay as they were. -/
theorem walk_stops_at_failing_group {error : Error}
    (failed : ((guide.walk root).run resolve).failure = some error) :
    ∃ done failing left, guide.Lists root.children (done ++ failing :: left) ∧
      guide.WalkStops resolve root done failing left error := by
  obtain ⟨groups, lists, walks⟩ := guide.exists_visits_walk root
  obtain ⟨done, left, inner, rfl, _, went, walked⟩ := exists_went_of_visits resolve walks
  have failure := went.failure
  have innerFailed : (inner.run resolve).failure = some error := by
    rw [walked] at failed
    exact failed
  rw [innerFailed] at failure
  cases left with
  | nil => cases failure
  | cons failing left =>
    exact ⟨done, failing, left, lists, ⟨_, congrArg Walked.result walked, went.tree⟩,
      went.succeeded, failure_fillGroup_eq_some_iff.1 failure.symm, went.asked⟩

end

end Guide

def containerOf (children : List Element) : Element := ⟨['b'], [], [], children, false⟩

/-- Every stretch of paragraphs is filled: the one in front of an inner container, the one in it,
and the one behind it, which has no placeholder. -/
theorem walk_fills_three_groups :
    let guide : Guide := { Guide.standard with policy := .split }
    let placeholder := paragraphOf [textRun ['{', '{', 'a', '}', '}']]
    let plain := paragraphOf [textRun ['.']]
    let value := paragraphOf [textRun ['A']]
    let root := containerOf [placeholder, plain, containerOf [placeholder], plain]
    let resolve := fun _ : Text => some ['A']
    (guide.walk root).run resolve
        = ⟨containerOf [value, plain, containerOf [value], plain], ⟨3, 2, 0, 0⟩, [], none⟩ ∧
      ∃ groups, guide.Lists root.children groups ∧ guide.WalkFills resolve root groups := by
  intro guide placeholder plain value root resolve
  have walked : (guide.walk root).run resolve
      = ⟨containerOf [value, plain, containerOf [value], plain], ⟨3, 2, 0, 0⟩, [], none⟩ := by cbv
  have success : ((guide.walk root).run resolve).failure = none := by rw [walked]
  exact ⟨walked, guide.walk_fills_groups resolve root success⟩

/-- The first container is filled. In the second one a placeholder that could be filled stands in
front of one that is not closed, and the third container is not reached. -/
theorem walk_stops_at_second_group :
    let guide := Guide.standard
    let placeholder := containerOf [paragraphOf [textRun ['{', '{', 'a', '}', '}']]]
    let broken := containerOf [paragraphOf [textRun ['{', '{', 'a', '}', '}', '{', '{', 'b']]]
    let value := containerOf [paragraphOf [textRun ['A']]]
    let root := containerOf [placeholder, broken, placeholder]
    let resolve := fun _ : Text => some ['A']
    let error := Error.unterminatedPlaceholder 2 ['{', '{', 'b']
    (guide.walk root).run resolve
        = ⟨containerOf [value, broken, placeholder], ⟨2, 1, 0, 0⟩, [], some error⟩ ∧
      ∃ done failing left, guide.Lists root.children (done ++ failing :: left) ∧
        guide.WalkStops resolve root done failing left error := by
  intro guide placeholder broken value root resolve error
  have walked : (guide.walk root).run resolve
      = ⟨containerOf [value, broken, placeholder], ⟨2, 1, 0, 0⟩, [], some error⟩ := by cbv
  have failed : ((guide.walk root).run resolve).failure = some error := by rw [walked]
  exact ⟨walked, guide.walk_stops_at_failing_group resolve root failed⟩

end MailMerge.Fill
