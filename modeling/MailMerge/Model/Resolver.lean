import MailMerge.Model.Memo
import MailMerge.Model.Path

set_option autoImplicit false

namespace MailMerge.Model

/-- A data model with the answers it gave, also to paths that are not found. -/
structure Resolver where
  model : Json.Value
  memo : Memo (Option Text)

namespace Resolver

def defaultCapacity : Nat := 256

def ofModel (capacity : Nat) (model : Json.Value) : Resolver := ⟨model, Memo.empty capacity⟩

def probe (path : Text) (resolver : Resolver) : Option (Option Text) × Resolver :=
  let (hit, memo) := resolver.memo.get? path
  (hit, { resolver with memo := memo })

def remember (path : Text) (answer : Option Text) (resolver : Resolver) : Resolver :=
  { resolver with memo := resolver.memo.put path answer }

/-- The answer for a path: the remembered one, or else the model's, which is then remembered. -/
def resolve (resolver : Resolver) (path : Text) : Option Text × Resolver :=
  match resolver.probe path with
  | (some answer, resolver) => (answer, resolver)
  | (none, resolver) =>
    let answer := resolve? resolver.model path
    (answer, resolver.remember path answer)

end Resolver

end MailMerge.Model
