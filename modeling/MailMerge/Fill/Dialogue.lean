import MailMerge.Text.Basic

set_option autoImplicit false

namespace MailMerge.Fill

/-- Work that ends in a result, or asks for the value of a path and goes on with the answer. No
answer means that the path was not found. -/
inductive Dialogue (α : Type) where
  | done (result : α)
  | ask (path : Text) (reply : Option Text → Dialogue α)

namespace Dialogue

variable {α β σ : Type}

def bind : Dialogue α → (α → Dialogue β) → Dialogue β
  | done result, next => next result
  | ask path reply, next => ask path fun answer => (reply answer).bind next

def run (resolve : Text → Option Text) : Dialogue α → α
  | done result => result
  | ask path reply => (reply (resolve path)).run resolve

/-- The paths that are asked for when every path has one fixed value. -/
def asked (resolve : Text → Option Text) : Dialogue α → List Text
  | done _ => []
  | ask path reply => path :: (reply (resolve path)).asked resolve

/-- The result when the answers come from something that each question may change. -/
def runWith (resolve : σ → Text → Option Text × σ) (state : σ) : Dialogue α → α × σ
  | done result => (result, state)
  | ask path reply =>
    let (answer, state) := resolve state path
    (reply answer).runWith resolve state

@[simp] theorem run_done (resolve : Text → Option Text) (result : α) :
    (done result).run resolve = result := rfl

@[simp] theorem run_ask (resolve : Text → Option Text) (path : Text)
    (reply : Option Text → Dialogue α) :
    (ask path reply).run resolve = (reply (resolve path)).run resolve := rfl

@[simp] theorem asked_done (resolve : Text → Option Text) (result : α) :
    (done result).asked resolve = [] := rfl

@[simp] theorem asked_ask (resolve : Text → Option Text) (path : Text)
    (reply : Option Text → Dialogue α) :
    (ask path reply).asked resolve = path :: (reply (resolve path)).asked resolve := rfl

@[simp] theorem run_bind (resolve : Text → Option Text) (work : Dialogue α)
    (next : α → Dialogue β) :
    (work.bind next).run resolve = (next (work.run resolve)).run resolve := by
  induction work with
  | done result => rfl
  | ask path reply ih => exact ih (resolve path)

end Dialogue

end MailMerge.Fill
