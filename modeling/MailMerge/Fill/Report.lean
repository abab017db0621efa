set_option autoImplicit false

namespace MailMerge.Fill

structure Report where
  /-- The groups of paragraphs that hold any run. -/
  containers : Nat
  /-- The placeholders that got a value. -/
  replaced : Nat
  /-- The placeholders whose path was not found. -/
  unresolved : Nat
  /-- The paragraphs left alone because of a sibling in front of them. -/
  truncatedParagraphs : Nat
  deriving Repr, DecidableEq

namespace Report

def zero : Report := ⟨0, 0, 0, 0⟩

def add (first second : Report) : Report :=
  ⟨first.containers + second.containers, first.replaced + second.replaced,
    first.unresolved + second.unresolved,
    first.truncatedParagraphs + second.truncatedParagraphs⟩

instance : Add Report := ⟨add⟩

instance : OfNat Report 0 := ⟨zero⟩

end Report

end MailMerge.Fill
