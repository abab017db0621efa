import MailMerge.Fill.Dialogue
import MailMerge.Proofs.Model.Memo
import Mathlib.Logic.Function.Iterate

/-!
Threads that share the memo of one resolver. The memo is locked while a path is looked up in it and
while an answer is put into it, but not while the answer is computed, so between these steps other
threads take theirs. In whatever order they do, every call returns what the data model says.
-/

set_option autoImplicit false

namespace MailMerge.Fill

open Model (MemoOps Contents Remembers)

/-- Where a thread is with its work. -/
inductive Stage (α : Type) where
  /-- It makes its next call, or it is done. -/
  | working (work : Dialogue α)
  /-- The path of its call was not in the memo. -/
  | missed (path : Text) (reply : Option Text → Dialogue α)
  /-- It has computed the answer to its call. -/
  | computed (path : Text) (answer : Option Text) (reply : Option Text → Dialogue α)

/-- A thread, with the paths of the calls that have returned and the answers to them. -/
structure Thread (α : Type) where
  stage : Stage α
  returned : List (Text × Option Text)

/-- A memo that is shared, with the paths of all that was put into it, the latest first. -/
structure SharedMemo (σ : Type) where
  memo : σ
  inserted : List Text

/-- Threads by their names, and the memo that they share. -/
structure Threads (ι σ α : Type) where
  shared : SharedMemo σ
  thread : ι → Thread α

section

variable {ι σ α : Type} [DecidableEq ι] (ops : MemoOps (Option Text) σ) (model : Json.Value)

/-- The next step of a thread: it looks into the memo, computes an answer that was not there, or
puts this answer into the memo. -/
def Thread.step (thread : Thread α) (shared : SharedMemo σ) : Thread α × SharedMemo σ :=
  match thread.stage with
  | .working (.done _) => (thread, shared)
  | .working (.ask path reply) =>
    match ops.get? path shared.memo with
    | (some answer, memo) =>
      (⟨.working (reply answer), thread.returned ++ [(path, answer)]⟩, { shared with memo := memo })
    | (none, memo) => ({ thread with stage := .missed path reply }, { shared with memo := memo })
  | .missed path reply =>
    ({ thread with stage := .computed path (Model.resolve? model path) reply }, shared)
  | .computed path answer reply =>
    (⟨.working (reply answer), thread.returned ++ [(path, answer)]⟩,
      ⟨ops.put path answer shared.memo, path :: shared.inserted⟩)

namespace Threads

def start (capacity : Nat) (works : ι → Dialogue α) : Threads ι σ α :=
  ⟨⟨ops.new (max capacity 1), []⟩, fun id => ⟨.working (works id), []⟩⟩

def step (threads : Threads ι σ α) (id : ι) : Threads ι σ α :=
  let (thread, shared) := (threads.thread id).step ops model threads.shared
  ⟨shared, Function.update threads.thread id thread⟩

/-- The steps of threads in the order of a schedule. -/
def after (schedule : List ι) (threads : Threads ι σ α) : Threads ι σ α :=
  schedule.foldl (step ops model) threads

theorem thread_step_self (threads : Threads ι σ α) (id : ι) :
    (threads.step ops model id).thread id
      = ((threads.thread id).step ops model threads.shared).1 :=
  Function.update_self ..

theorem thread_step_of_ne (threads : Threads ι σ α) {id other : ι} (apart : other ≠ id) :
    (threads.step ops model id).thread other = threads.thread other :=
  Function.update_of_ne apart ..

end Threads

end

section

variable {α : Type} (resolve : Text → Option Text)

/-- The calls of some work with their answers when every path has one fixed value. -/
def Dialogue.calls (work : Dialogue α) : List (Text × Option Text) :=
  (work.asked resolve).map fun path => (path, resolve path)

theorem Dialogue.calls_ask (path : Text) (reply : Option Text → Dialogue α) :
    (ask path reply).calls resolve
      = [(path, resolve path)] ++ (reply (resolve path)).calls resolve := rfl

/-- What is left of a thread's work, a call that has not returned included. -/
def Stage.work : Stage α → Dialogue α
  | .working work => work
  | .missed path reply => .ask path reply
  | .computed path _ reply => .ask path reply

/-- How many steps a thread takes at most until it is done. -/
def Stage.left : Stage α → Nat
  | .working work => 3 * (work.asked resolve).length
  | .missed path reply => 3 * ((reply (resolve path)).asked resolve).length + 2
  | .computed path _ reply => 3 * ((reply (resolve path)).asked resolve).length + 1

theorem Stage.eq_done_of_left_eq_zero {stage : Stage α} (nothing : stage.left resolve = 0) :
    stage = .working (.done (stage.work.run resolve)) := by
  cases stage with
  | working work =>
    cases work with
    | done result => rfl
    | ask path reply => simp [left] at nothing
  | missed path reply => simp [left] at nothing
  | computed path answer reply => simp [left] at nothing

/-- A thread does its work with right answers. -/
structure Thread.Follows (work : Dialogue α) (thread : Thread α) : Prop where
  computed : ∀ path answer reply, thread.stage = .computed path answer reply →
    answer = resolve path
  calls : thread.returned ++ thread.stage.work.calls resolve = work.calls resolve
  result : thread.stage.work.run resolve = work.run resolve

theorem Thread.Follows.answer_eq {resolve : Text → Option Text} {work : Dialogue α}
    {thread : Thread α} (follows : thread.Follows resolve work) {path : Text}
    {answer : Option Text} (member : (path, answer) ∈ thread.returned) :
    answer = resolve path := by
  have called : (path, answer) ∈ work.calls resolve := by
    rw [← follows.calls]
    exact List.mem_append_left _ member
  obtain ⟨_, _, same⟩ := List.mem_map.1 called
  obtain ⟨rfl, rfl⟩ := Prod.mk.inj same
  rfl

/-- A call that returns the right answer keeps a thread on its way. -/
theorem Thread.Follows.answered {resolve : Text → Option Text} {work : Dialogue α}
    {thread : Thread α} (follows : thread.Follows resolve work) {path : Text}
    {reply : Option Text → Dialogue α} (asks : thread.stage.work = .ask path reply) :
    (⟨.working (reply (resolve path)), thread.returned ++ [(path, resolve path)]⟩ :
      Thread α).Follows resolve work := by
  obtain ⟨_, calls, result⟩ := follows
  rw [asks, Dialogue.calls_ask] at calls
  rw [asks, Dialogue.run_ask] at result
  refine ⟨by simp, ?_, result⟩
  rw [Stage.work, List.append_assoc, calls]

/-- A thread that has nothing left to do has the result of its work, and made all of its calls. -/
theorem Thread.Follows.eq_of_left_eq_zero {resolve : Text → Option Text} {work : Dialogue α}
    {thread : Thread α} (follows : thread.Follows resolve work)
    (nothing : thread.stage.left resolve = 0) :
    thread = ⟨.working (.done (work.run resolve)), work.calls resolve⟩ := by
  obtain ⟨stage, returned⟩ := thread
  obtain ⟨_, calls, result⟩ := follows
  have done := Stage.eq_done_of_left_eq_zero resolve nothing
  dsimp only at done calls result
  rw [result] at done
  rw [done] at calls ⊢
  rw [← calls]
  congr 1
  exact (List.append_nil returned).symm

end

section

variable {σ α : Type} {ops : MemoOps (Option Text) σ}
  {holds : Nat → σ → Contents (Option Text) → Prop} (bounded : ops.Bounded holds)
  {model : Json.Value} {capacity : Nat}

/-- A memo that holds as many right answers as it has room for. -/
def SharedMemo.Sound (holds : Nat → σ → Contents (Option Text) → Prop) (model : Json.Value)
    (capacity : Nat) (shared : SharedMemo σ) : Prop :=
  ∃ contents, holds capacity shared.memo contents ∧
    Remembers (Model.resolve? model) capacity contents shared.inserted

include bounded

/-- A step keeps the memo sound and the thread on its way, and is one of the steps that the thread
has left. -/
theorem Thread.step_keeps {work : Dialogue α} {thread : Thread α} {shared : SharedMemo σ}
    (sound : shared.Sound holds model capacity)
    (follows : thread.Follows (Model.resolve? model) work) :
    let next := thread.step ops model shared
    next.2.Sound holds model capacity ∧ next.1.Follows (Model.resolve? model) work ∧
      next.1.stage.left (Model.resolve? model) ≤ thread.stage.left (Model.resolve? model) - 1 := by
  obtain ⟨stage, returned⟩ := thread
  obtain ⟨contents, has, remembers⟩ := sound
  cases stage with
  | working rest =>
    cases rest with
    | done value => exact ⟨⟨contents, has, remembers⟩, follows, Nat.le_refl _⟩
    | ask path reply =>
      obtain ⟨found, still⟩ := bounded.get? _ _ _ path has
      cases looked : ops.get? path shared.memo with
      | mk hit memo =>
        rw [looked] at found still
        cases hit with
        | some answer =>
          obtain rfl := remembers.right path answer found.symm
          simp only [step, looked]
          refine ⟨⟨contents, still, remembers⟩, follows.answered rfl, ?_⟩
          simp only [Stage.left, Dialogue.asked_ask, List.length_cons]
          omega
        | none =>
          simp only [step, looked]
          refine ⟨⟨contents, still, remembers⟩, ⟨by simp, follows.calls, follows.result⟩, ?_⟩
          simp only [Stage.left, Dialogue.asked_ask, List.length_cons]
          omega
  | missed path reply =>
    refine ⟨⟨contents, has, remembers⟩, ⟨?_, follows.calls, follows.result⟩, ?_⟩
    · rintro _ _ _ ⟨⟩
      rfl
    · simp only [step, Stage.left]
      omega
  | computed path answer reply =>
    -- Since the path was missed, other threads may have put it in, or it may even be gone again.
    obtain rfl := follows.computed path answer reply rfl
    refine ⟨remembers.put bounded has path, follows.answered rfl, ?_⟩
    simp only [step, Stage.left]
    omega

/-- The memo is sound and all threads do their work with right answers. -/
structure Threads.Sound {ι : Type} (holds : Nat → σ → Contents (Option Text) → Prop)
    (model : Json.Value) (capacity : Nat) (works : ι → Dialogue α) (threads : Threads ι σ α) :
    Prop where
  shared : threads.shared.Sound holds model capacity
  thread : ∀ id, (threads.thread id).Follows (Model.resolve? model) (works id)

namespace Threads

variable {ι : Type} [DecidableEq ι] {works : ι → Dialogue α}

omit [DecidableEq ι] in
theorem sound_start (model : Json.Value) (capacity : Nat) (works : ι → Dialogue α) :
    (start ops capacity works).Sound holds model (max capacity 1) works :=
  ⟨⟨∅, bounded.new _ (by omega), Remembers.empty _ _⟩,
    fun _ => ⟨by simp [start], rfl, rfl⟩⟩

theorem sound_step {threads : Threads ι σ α} (sound : threads.Sound holds model capacity works)
    (id : ι) :
    (threads.step ops model id).Sound holds model capacity works ∧
      ∀ other, ((threads.step ops model id).thread other).stage.left (Model.resolve? model)
        ≤ (threads.thread other).stage.left (Model.resolve? model) - [id].count other := by
  obtain ⟨shared, follows, fewer⟩ := Thread.step_keeps bounded sound.shared (sound.thread id)
  refine ⟨⟨shared, fun other => ?_⟩, fun other => ?_⟩
  · by_cases same : other = id
    · subst same
      rwa [thread_step_self]
    · rw [thread_step_of_ne ops model threads same]
      exact sound.thread other
  · by_cases same : other = id
    · subst same
      rwa [thread_step_self, List.count_singleton_self]
    · rw [thread_step_of_ne ops model threads same, List.count_singleton,
        if_neg (by simpa using Ne.symm same)]
      exact Nat.le_refl _

theorem sound_after {threads : Threads ι σ α} (sound : threads.Sound holds model capacity works)
    (schedule : List ι) :
    (threads.after ops model schedule).Sound holds model capacity works ∧
      ∀ id, ((threads.after ops model schedule).thread id).stage.left (Model.resolve? model)
        ≤ (threads.thread id).stage.left (Model.resolve? model) - schedule.count id := by
  induction schedule generalizing threads with
  | nil => exact ⟨sound, fun id => Nat.le_refl _⟩
  | cons first schedule ih =>
    obtain ⟨next, fewer⟩ := sound_step bounded sound first
    obtain ⟨last, fewest⟩ := ih next
    refine ⟨last, fun id => ?_⟩
    have here := fewer id
    have rest : ((threads.after ops model (first :: schedule)).thread id).stage.left _ ≤ _ :=
      fewest id
    rw [List.count_cons] at *
    omega

/-- A thread is done after three steps for each of its calls. -/
theorem thread_after_eq (capacity : Nat) (schedule : List ι) {id : ι}
    (enough : 3 * ((works id).asked (Model.resolve? model)).length ≤ schedule.count id) :
    ((start ops capacity works).after ops model schedule).thread id
      = ⟨.working (.done ((works id).run (Model.resolve? model))),
        (works id).calls (Model.resolve? model)⟩ := by
  obtain ⟨⟨_, follows⟩, fewer⟩ :=
    sound_after bounded (sound_start bounded model capacity works) schedule
  apply (follows id).eq_of_left_eq_zero
  have left : (((start ops capacity works).after ops model schedule).thread id).stage.left
      (Model.resolve? model) ≤ 3 * ((works id).asked (Model.resolve? model)).length
        - schedule.count id := fewer id
  omega

end Threads

end

/-- The answers of a shared resolver do not depend on its memo. Whatever number of threads make
their calls, and in whatever order their steps are taken, each call returns what the data model
says. All entries of the memo are such answers, also of paths that are not found, and it has as many
as different paths were put into it, up to its capacity. A thread is done after three steps for each
of its calls. -/
theorem Threads.calls_agree {ι σ α : Type} [DecidableEq ι] {ops : MemoOps (Option Text) σ}
    {holds : Nat → σ → Contents (Option Text) → Prop} (bounded : ops.Bounded holds)
    (model : Json.Value) (capacity : Nat) (works : ι → Dialogue α) (schedule : List ι) :
    let resolve := Model.resolve? model
    let threads := (Threads.start ops capacity works).after ops model schedule
    (∀ id path answer, (path, answer) ∈ (threads.thread id).returned → answer = resolve path) ∧
      (∃ contents, holds (max capacity 1) threads.shared.memo contents ∧
        (∀ path answer, contents.lookup path = some answer → answer = resolve path) ∧
        contents.keys.card = min (max capacity 1) threads.shared.inserted.toFinset.card) ∧
      ∀ id, 3 * ((works id).asked resolve).length ≤ schedule.count id →
        threads.thread id
          = ⟨.working (.done ((works id).run resolve)), (works id).calls resolve⟩ := by
  intro resolve threads
  obtain ⟨⟨⟨contents, has, remembers⟩, follows⟩, _⟩ := Threads.sound_after bounded
    (Threads.sound_start bounded model capacity works) schedule
  exact ⟨fun id path answer => (follows id).answer_eq,
    ⟨contents, has, remembers.right, remembers.card⟩,
    fun id enough => Threads.thread_after_eq bounded capacity schedule enough⟩

/-- Two threads that ask for the same two paths, with room for one entry. Both miss the first path
and put its answer into the memo, and the second path, which is not found, takes its place. -/
theorem two_threads_agree :
    let model : Json.Value := .object [(['a'], .string ['x'])]
    let work : Dialogue (List (Option Text)) :=
      .ask ['a'] fun first => .ask ['b'] fun second => .done [first, second]
    let schedule := (List.replicate 6 [false, true]).flatten
    let threads := (Threads.start (Model.Memo.ops (Option Text)) 0 fun _ => work).after
      (Model.Memo.ops (Option Text)) model schedule
    (∀ id, threads.thread id = ⟨.working (.done [some ['x'], none]),
        [(['a'], some ['x']), (['b'], none)]⟩) ∧
      threads.shared = ⟨⟨1, [(['b'], none)]⟩, [['b'], ['b'], ['a'], ['a']]⟩ := by
  intro model work schedule threads
  obtain ⟨_, _, done⟩ := Threads.calls_agree (Model.Memo.bounded_ops (Option Text)) model 0
    (fun _ : Bool => work) schedule
  have result : work.run (Model.resolve? model) = [some ['x'], none] := by cbv
  have calls : work.calls (Model.resolve? model) = [(['a'], some ['x']), (['b'], none)] := by cbv
  refine ⟨fun id => ?_, by cbv⟩
  rw [done id (by cases id <;> cbv), result, calls]

section

variable {ι α : Type} [DecidableEq ι] (model : Json.Value)

namespace Threads

/-- A call that is not interrupted is answered by the resolver. -/
theorem exists_after_resolve (threads : Threads ι (Model.Memo (Option Text)) α) (id : ι)
    {path : Text} {reply : Option Text → Dialogue α} {returned : List (Text × Option Text)}
    (here : threads.thread id = ⟨.working (.ask path reply), returned⟩) :
    let resolved := Model.Resolver.resolve ⟨model, threads.shared.memo⟩ path
    ∃ steps, let next := threads.after (Model.Memo.ops _) model (List.replicate steps id)
      next.thread id = ⟨.working (reply resolved.1), returned ++ [(path, resolved.1)]⟩ ∧
        next.shared.memo = resolved.2.memo := by
  intro resolved
  cases looked : threads.shared.memo.get? path with
  | mk hit memo =>
    cases hit with
    | some answer =>
      refine ⟨1, ?_⟩
      simp [resolved, Model.Resolver.resolve, Model.Resolver.probe, after, step, Thread.step, here,
        Model.Memo.ops, looked]
    | none =>
      refine ⟨3, ?_⟩
      simp [resolved, Model.Resolver.resolve, Model.Resolver.probe, Model.Resolver.remember, after,
        step, Thread.step, here, Model.Memo.ops, looked, List.replicate]

/-- Work that the resolver answers alone is one of the ways in which a thread can go. -/
theorem exists_after_runWith (threads : Threads ι (Model.Memo (Option Text)) α) (id : ι)
    {work : Dialogue α} {returned : List (Text × Option Text)}
    (here : threads.thread id = ⟨.working work, returned⟩) :
    let worked := work.runWith Model.Resolver.resolve ⟨model, threads.shared.memo⟩
    ∃ steps, let next := threads.after (Model.Memo.ops _) model (List.replicate steps id)
      (next.thread id).stage = .working (.done worked.1) ∧ next.shared.memo = worked.2.memo := by
  induction work generalizing threads returned with
  | done result => exact ⟨0, by simp [after, here, Dialogue.runWith]⟩
  | ask path reply ih =>
    obtain ⟨first, answered, memo⟩ := exists_after_resolve model threads id here
    obtain ⟨others, worked, left⟩ := ih _ _ answered
    have same : (⟨model, (threads.after (Model.Memo.ops _) model
          (List.replicate first id)).shared.memo⟩ : Model.Resolver)
        = (Model.Resolver.resolve ⟨model, threads.shared.memo⟩ path).2 := by
      have kept := Model.model_resolve ⟨model, threads.shared.memo⟩ path
      rw [memo]
      exact congrArg (fun other => (⟨other, _⟩ : Model.Resolver)) kept.symm
    rw [same] at worked left
    refine ⟨first + others, ?_⟩
    rw [List.replicate_add, after, List.foldl_append]
    exact ⟨worked, left⟩

/-- Work that the resolver answers alone has the result that the data model gives it. -/
theorem runWith_ofModel (capacity : Nat) (work : Dialogue α) :
    (work.runWith Model.Resolver.resolve (Model.Resolver.ofModel capacity model)).1
      = work.run (Model.resolve? model) := by
  obtain ⟨steps, worked, _⟩ := exists_after_runWith model
    (start (Model.Memo.ops _) capacity fun _ : Unit => work) () rfl
  have initial := sound_start (Model.Memo.bounded_ops _) model capacity fun _ : Unit => work
  obtain ⟨⟨_, follows⟩, _⟩ :=
    sound_after (Model.Memo.bounded_ops _) initial (List.replicate steps ())
  have result := (follows ()).result
  rw [worked] at result
  exact result

end Threads

end

end MailMerge.Fill
