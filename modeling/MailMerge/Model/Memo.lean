import MailMerge.Text.Basic

set_option autoImplicit false

namespace MailMerge.Model

/-- Entries by path, the latest first, at most `capacity` of them. -/
structure Memo (α : Type) where
  capacity : Nat
  entries : List (Text × α)
  deriving Repr, DecidableEq

namespace Memo

variable {α : Type}

/-- A memo without entries. It holds one entry at least. -/
def empty (capacity : Nat) : Memo α := ⟨max capacity 1, []⟩

def size (memo : Memo α) : Nat := memo.entries.length

/-- The entries of all other paths. -/
def others (path : Text) (memo : Memo α) : List (Text × α) :=
  memo.entries.filter fun entry => entry.1 ≠ path

/-- The entry of a path, and the memo with it as the latest. -/
def get? (path : Text) (memo : Memo α) : Option α × Memo α :=
  match memo.entries.find? (·.1 = path) with
  | some entry => (some entry.2, { memo with entries := entry :: memo.others path })
  | none => (none, memo)

/-- The memo with an entry for a path. A full memo gives up the entry that was not used for
longest. -/
def put (path : Text) (value : α) (memo : Memo α) : Memo α :=
  { memo with entries := ((path, value) :: memo.others path).take memo.capacity }

end Memo

end MailMerge.Model
