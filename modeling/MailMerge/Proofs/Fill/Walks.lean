import MailMerge.Fill.Processor

set_option autoImplicit false

namespace MailMerge.Fill

open Markup (Element)

namespace Dialogue

variable {α β γ : Type}

theorem bind_assoc (work : Dialogue α) (next : α → Dialogue β) (last : β → Dialogue γ) :
    (work.bind next).bind last = work.bind fun result => (next result).bind last := by
  induction work with
  | done result => rfl
  | ask path reply ih => exact congrArg (ask path) (funext ih)

@[simp] theorem asked_bind (resolve : Text → Option Text) (work : Dialogue α)
    (next : α → Dialogue β) :
    (work.bind next).asked resolve
      = work.asked resolve ++ (next (work.run resolve)).asked resolve := by
  induction work with
  | done result => rfl
  | ask path reply ih => exact congrArg (path :: ·) (ih (resolve path))

end Dialogue

section

variable {α β γ : Type} (f : α → β → γ) (first : Walked α) (untouched : β)
  (next : Dialogue (Walked β)) (resolve : Text → Option Text)

theorem run_followedBy :
    (followedBy f first untouched next).run resolve =
      if first.failure.isSome then first.map fun result => f result untouched
      else first.join f (next.run resolve) := by
  rw [followedBy]
  cases first.failure with
  | some error => rfl
  | none => rw [Dialogue.run_bind]; rfl

theorem asked_followedBy :
    (followedBy f first untouched next).asked resolve =
      if first.failure.isSome then [] else next.asked resolve := by
  rw [followedBy]
  cases first.failure with
  | some error => rfl
  | none => simp

/-- Behind an error, the next thing is left as it was. -/
theorem result_followedBy :
    ((followedBy f first untouched next).run resolve).result = f first.result
      (if first.failure.isSome then untouched else (next.run resolve).result) := by
  rw [run_followedBy]
  split <;> rfl

end

/-- The work of walking through a list of elements. -/
inductive Walks (guide : Guide) : List Element → Dialogue (Walked (List Element)) → Prop
  | alone {elements : List Element} {walked : Walked (List Element)}
      (same : walked.result = elements) (success : walked.failure = none) :
      Walks guide elements (.done walked)
  | group {group : List Element}
      (paragraphs : ∀ element, element ∈ group → guide.isParagraph element = true) :
      Walks guide group (guide.fillGroup group)
  | inside {element : Element} {work : Dialogue (Walked (List Element))}
      (children : Walks guide element.children work) :
      Walks guide [element] (work.bind fun inside =>
        .done (inside.map fun children => [{ element with children := children }]))
  | append {front behind : List Element} {work next : Dialogue (Walked (List Element))}
      (first : Walks guide front work) (second : Walks guide behind next) :
      Walks guide (front ++ behind) (work.bind fun walked =>
        followedBy (· ++ ·) walked behind next)

namespace Walks

variable {guide : Guide}

def One (guide : Guide) (element : Element) (work : Dialogue (Walked Element)) : Prop :=
  Walks guide [element] (work.bind fun walked => .done (walked.map fun element => [element]))

theorem one {element : Element} {work : Dialogue (Walked (List Element))}
    (children : Walks guide element.children work) :
    One guide element (work.bind fun inside =>
      .done (inside.map fun children => { element with children := children })) := by
  have walked := inside children
  rw [One, Dialogue.bind_assoc]
  exact walked

end Walks

end MailMerge.Fill
