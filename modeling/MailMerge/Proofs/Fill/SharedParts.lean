import MailMerge.Fill.Parts
import MailMerge.Proofs.Fill.KeptMarkup
import MailMerge.Proofs.Fill.SharedResolver
import Mathlib.Algebra.GroupWithZero.Nat
import Mathlib.Data.List.OfFn

set_option autoImplicit false

namespace MailMerge.Fill

open Markup (Document)
open Model (MemoOps Contents)

/-- What filling a part gives when it has a resolver of its own. -/
def Part.filledAlone (processor : Processor) (model : Json.Value) (capacity : Nat) (part : Part) :
    PartResult :=
  ⟨part.name, ((processor.fillPart part.bytes).runWith Model.Resolver.resolve
    (Model.Resolver.ofModel capacity model)).1⟩

/-- All threads are done, and these are their results in order. -/
def Threads.Collects {count : Nat} {σ α : Type} (threads : Threads (Fin count) σ α)
    (results : List α) : Prop :=
  List.ofFn (fun index => (threads.thread index).stage)
    = results.map fun result => .working (.done result)

section

variable {σ : Type} (ops : MemoOps (Option Text) σ) (processor : Processor) (model : Json.Value)
  (capacity : Nat) (parts : List Part)

/-- Threads that fill one part each, after the steps of a schedule. -/
def filling (schedule : List (Fin parts.length)) : Threads (Fin parts.length) σ PartResult :=
  (Threads.start ops capacity fun index => parts[index].fill processor).after ops model schedule

/-- Results of filling parts at once, in the order of the parts. -/
def FilledTogether (results : List PartResult) : Prop :=
  ∃ schedule, (filling ops processor model capacity parts schedule).Collects results

end

def Report.sum (reports : List Report) : Report :=
  ⟨(reports.map Report.containers).sum, (reports.map Report.replaced).sum,
    (reports.map Report.unresolved).sum, (reports.map Report.truncatedParagraphs).sum⟩

theorem Report.foldl_add (reports : List Report) (start : Report) :
    reports.foldl (· + ·) start = start + Report.sum reports := by
  induction reports generalizing start with
  | nil => rfl
  | cons report reports ih =>
    rw [List.foldl_cons, ih]
    show Report.add (Report.add start report) (Report.sum reports)
      = Report.add start (Report.sum (report :: reports))
    simp only [Report.add, Report.sum, List.map_cons, List.sum_cons, Nat.add_assoc]

theorem Report.sum_perm {reports others : List Report} (perm : reports.Perm others) :
    Report.sum reports = Report.sum others := by
  simp only [Report.sum, (perm.map _).sum_eq]

/-- What was made of the parts that were filled; parts that failed are left out. -/
def successes (results : List PartResult) : List Replaced :=
  results.filterMap fun result => result.outcome.result.toOption

theorem totalReport_eq (results : List PartResult) :
    totalReport results = Report.sum ((successes results).map Replaced.report) := by
  have reports : results.filterMap PartResult.report?
      = (successes results).map Replaced.report := by
    rw [successes, List.map_filterMap]
    apply List.filterMap_congr
    intro result _
    unfold PartResult.report?
    cases result.outcome.result <;> rfl
  rw [totalReport, reports, Report.foldl_add]
  show Report.add Report.zero _ = _
  simp [Report.add, Report.zero]

theorem totalReport_perm {results others : List PartResult} (perm : results.Perm others) :
    totalReport results = totalReport others := by
  rw [totalReport_eq, totalReport_eq]
  exact Report.sum_perm ((perm.filterMap _).map _)

theorem Part.run_fill (processor : Processor) (model : Json.Value) (capacity : Nat) (part : Part) :
    (part.fill processor).run (Model.resolve? model)
      = part.filledAlone processor model capacity := by
  rw [Part.fill, Dialogue.run_bind, Part.filledAlone, Threads.runWith_ofModel]
  rfl

/-- Filling parts one after the other gives what each gives alone. -/
theorem runWith_fillParts (processor : Processor) (model : Json.Value) (capacity fresh : Nat)
    (parts : List Part) :
    ((fillParts processor parts).runWith Model.Resolver.resolve
      (Model.Resolver.ofModel capacity model)).1
      = parts.map (Part.filledAlone processor model fresh) := by
  rw [Threads.runWith_ofModel]
  induction parts with
  | nil => rfl
  | cons part parts ih =>
    rw [fillParts, Dialogue.run_bind, Dialogue.run_bind, Part.run_fill processor model fresh, ih]
    rfl

theorem Threads.Collects.eq_ofFn {count : Nat} {σ α : Type} {threads : Threads (Fin count) σ α}
    {results : List α} (collects : threads.Collects results) {answer : Fin count → α}
    (done : ∀ index result, (threads.thread index).stage = .working (.done result) →
      result = answer index) : results = List.ofFn answer := by
  have length : results.length = count := by simpa using (congrArg List.length collects).symm
  apply List.ext_getElem (by simpa using length)
  intro index inside bound
  have stages := congrArg (fun stages => stages[index]?) collects
  have smaller : index < count := length ▸ inside
  simp only [List.getElem?_ofFn, smaller, ↓reduceDIte, List.getElem?_map,
    List.getElem?_eq_getElem inside, Option.map_some, Option.some.injEq] at stages
  rw [List.getElem_ofFn]
  exact done ⟨index, smaller⟩ _ stages

section

variable {σ : Type} {ops : MemoOps (Option Text) σ}
  {holds : Nat → σ → Contents (Option Text) → Prop} (bounded : ops.Bounded holds)
  (processor : Processor) (model : Json.Value) (capacity fresh : Nat)
include bounded

section

variable {parts : List Part} {schedule : List (Fin parts.length)}

/-- A part that is filled came out as it does alone, wherever the other parts are. -/
theorem filling_done {index : Fin parts.length} {result : PartResult}
    (done : ((filling ops processor model capacity parts schedule).thread index).stage
      = .working (.done result)) :
    result = parts[index].filledAlone processor model fresh := by
  obtain ⟨⟨_, follows⟩, _⟩ := Threads.sound_after bounded
    (Threads.sound_start bounded model capacity fun index : Fin parts.length =>
      parts[index].fill processor) schedule
  have same := (follows index).result
  rw [show ((Threads.start ops capacity _).after ops model schedule).thread index
    = (filling ops processor model capacity parts schedule).thread index from rfl, done] at same
  rw [← Part.run_fill processor model fresh]
  exact same

/-- All parts are filled when each of them got the steps that it takes. -/
theorem filling_collects (enough : ∀ index : Fin parts.length,
      3 * ((parts[index].fill processor).asked (Model.resolve? model)).length
        ≤ schedule.count index) :
    (filling ops processor model capacity parts schedule).Collects
      (parts.map (Part.filledAlone processor model fresh)) := by
  have stages : ∀ index, ((filling ops processor model capacity parts schedule).thread index).stage
      = .working (.done (parts[index].filledAlone processor model fresh)) := by
    intro index
    rw [filling, Threads.thread_after_eq bounded capacity schedule (enough index),
      Part.run_fill processor model fresh]
  rw [Threads.Collects, List.map_map]
  simp only [stages]
  exact List.ofFn_getElem_eq_map parts fun part =>
    Stage.working (.done (part.filledAlone processor model fresh))

end

variable {processor model capacity}

omit bounded in
/-- Some schedule gives every thread the steps that it takes. -/
theorem exists_schedule {count : Nat} (need : Fin count → Nat) :
    ∃ schedule : List (Fin count), ∀ index, need index ≤ schedule.count index := by
  refine ⟨(List.finRange count).flatMap fun index => List.replicate (need index) index, ?_⟩
  intro index
  obtain ⟨front, behind, split⟩ := List.append_of_mem (List.mem_finRange index)
  rw [split, List.flatMap_append, List.flatMap_cons, List.count_append, List.count_append,
    List.count_replicate_self]
  omega

/-- The results of filling parts at once are those of filling each of them alone. -/
theorem FilledTogether.iff_eq_map {parts : List Part} {results : List PartResult} :
    FilledTogether ops processor model capacity parts results ↔
      results = parts.map (Part.filledAlone processor model fresh) := by
  constructor
  · rintro ⟨schedule, collects⟩
    rw [collects.eq_ofFn fun _ _ => filling_done bounded processor model capacity fresh]
    exact List.ofFn_getElem_eq_map parts _
  · rintro rfl
    obtain ⟨schedule, enough⟩ := exists_schedule fun index : Fin parts.length =>
      3 * ((parts[index].fill processor).asked (Model.resolve? model)).length
    exact ⟨schedule, filling_collects bounded processor model capacity fresh enough⟩

end

/-- Parts that are filled at once come out as each of them does alone, in whatever order the steps
of their threads are taken. -/
structure FillsApart {σ : Type} (ops : MemoOps (Option Text) σ) (processor : Processor)
    (model : Json.Value) (capacity : Nat) (parts : List Part) : Prop where
  /-- A part that is filled has its name and the outcome that it has alone, while other parts are
  still being filled. -/
  done : ∀ fresh schedule index result,
    ((filling ops processor model capacity parts schedule).thread index).stage
        = .working (.done result) →
      result = parts[index].filledAlone processor model fresh
  /-- All parts are filled in the end, those included that fail. -/
  collects : ∀ fresh schedule, (∀ index : Fin parts.length,
      3 * ((parts[index].fill processor).asked (Model.resolve? model)).length
        ≤ schedule.count index) →
    (filling ops processor model capacity parts schedule).Collects
      (parts.map (Part.filledAlone processor model fresh))
  /-- There is no other result, and filling the parts one after the other gives it as well. -/
  results : ∀ fresh results, FilledTogether ops processor model capacity parts results ↔
    results = parts.map (Part.filledAlone processor model fresh)
  sequential : FilledTogether ops processor model capacity parts
    ((fillParts processor parts).runWith Model.Resolver.resolve
      (Model.Resolver.ofModel capacity model)).1
  /-- Another part in the place of one changes no result but its own. -/
  set : ∀ fresh index other results others,
    FilledTogether ops processor model capacity parts results →
    FilledTogether ops processor model capacity (parts.set index other) others →
    others = results.set index (other.filledAlone processor model fresh)
  /-- Parts in another order have their results in this order. -/
  reorder : ∀ (order : List (Fin parts.length)) results others,
    FilledTogether ops processor model capacity parts results →
    FilledTogether ops processor model capacity (order.map fun index => parts[index]) others →
    others.map some = order.map fun index => results[index]?
  /-- The total adds up the reports of the parts that did not fail, and goes by no order. -/
  total : ∀ results, FilledTogether ops processor model capacity parts results →
    totalReport results = Report.sum ((successes results).map Replaced.report) ∧
      ∀ shuffled others, shuffled.Perm parts →
        FilledTogether ops processor model capacity shuffled others →
        totalReport others = totalReport results

/-- What other parts make of the memo, and when, makes no difference to a part. -/
theorem fillsApart {σ : Type} {ops : MemoOps (Option Text) σ}
    {holds : Nat → σ → Contents (Option Text) → Prop} (bounded : ops.Bounded holds)
    (processor : Processor) (model : Json.Value) (capacity : Nat) (parts : List Part) :
    FillsApart ops processor model capacity parts where
  done := fun fresh _ _ _ => filling_done bounded processor model capacity fresh
  collects := fun fresh _ => filling_collects bounded processor model capacity fresh
  results := fun fresh _ => FilledTogether.iff_eq_map bounded fresh
  sequential := by
    rw [FilledTogether.iff_eq_map bounded 0, runWith_fillParts processor model capacity 0]
  set := by
    intro fresh index other results others filled otherFilled
    rw [FilledTogether.iff_eq_map bounded fresh] at filled otherFilled
    rw [filled, otherFilled, List.map_set]
  reorder := by
    intro order results others filled otherFilled
    rw [FilledTogether.iff_eq_map bounded 0] at filled otherFilled
    rw [filled, otherFilled, List.map_map, List.map_map]
    apply List.map_congr_left
    intro index _
    simp
  total := by
    intro results filled
    refine ⟨totalReport_eq results, fun shuffled others perm otherFilled => ?_⟩
    rw [FilledTogether.iff_eq_map bounded 0] at filled otherFilled
    rw [filled, otherFilled]
    exact totalReport_perm (perm.map _)

/-- A part that asks for a path that is not found and then is not closed, between two others. With
room for one answer, its questions drop theirs. -/
theorem broken_part_fills_apart :
    let model : Json.Value := .object [(['a'], .string ['A'])]
    let document : Text → Document := fun text =>
      .ofRoot ⟨['d'], [], [], [paragraphOf [textRun text]], false⟩
    let good := document ['{', '{', 'a', '}', '}', '{', '{', 'b', '}', '}']
    let broken := document ['{', '{', 'b', '}', '}', '{', '{', 'a']
    let parts : List Part := [⟨['1'], good.toBytes⟩, ⟨['2'], broken.toBytes⟩, ⟨['3'], good.toBytes⟩]
    let filled := document ['A', '{', '{', 'b', '}', '}']
    let outcome : PartOutcome := ⟨.ok ⟨filled.toBytes, ⟨1, 1, 1, 0⟩⟩, []⟩
    let failed : PartOutcome := ⟨.error (.unterminatedPlaceholder 6 ['{', '{', 'a']), []⟩
    let results : List PartResult := [⟨['1'], outcome⟩, ⟨['2'], failed⟩, ⟨['3'], outcome⟩]
    FilledTogether (Model.Memo.ops _) Processor.standard model 1 parts results ∧
      totalReport results = ⟨2, 2, 2, 0⟩ := by
  intro model document good broken parts filled outcome failed results
  have readGood : Document.ofBytes Processor.standard.lookahead good.toBytes = .ok good := by
    rw [Markup.ofBytes_toBytes_eq]
    exact Markup.ofText_written ⟨by decide, by decide⟩ (by decide)
  have readBroken : Document.ofBytes Processor.standard.lookahead broken.toBytes = .ok broken := by
    rw [Markup.ofBytes_toBytes_eq]
    exact Markup.ofText_written ⟨by decide, by decide⟩ (by decide)
  have fillGood : (Processor.standard.fillDocument good).run (Model.resolve? model)
      = ⟨filled, ⟨1, 1, 1, 0⟩, [], none⟩ := by
    cbv
  have fillBroken : (Processor.standard.fillDocument broken).run (Model.resolve? model)
      = ⟨broken, ⟨1, 0, 0, 0⟩, [], some (.unterminatedPlaceholder 6 ['{', '{', 'a'])⟩ := by
    cbv
  have goodAlone : ∀ name, (⟨name, good.toBytes⟩ : Part).filledAlone Processor.standard model 0
      = ⟨name, outcome⟩ := by
    intro name
    rw [Part.filledAlone, Threads.runWith_ofModel, Processor.run_fillPart _ _ readGood, fillGood]
  have brokenAlone : (⟨['2'], broken.toBytes⟩ : Part).filledAlone Processor.standard model 0
      = ⟨['2'], failed⟩ := by
    rw [Part.filledAlone, Threads.runWith_ofModel, Processor.run_fillPart _ _ readBroken,
      fillBroken]
  have apart := fillsApart (Model.Memo.bounded_ops _) Processor.standard model 1 parts
  refine ⟨(apart.results 0 results).2 ?_, rfl⟩
  show results = [_, _, _]
  rw [goodAlone, brokenAlone, goodAlone]

end MailMerge.Fill
