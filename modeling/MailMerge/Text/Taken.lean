import MailMerge.Text.Numeral

set_option autoImplicit false

namespace MailMerge

/-- A value read from the front of a text, and what is left of it. -/
structure Taken (α : Type) (text : Text) where
  value : α
  rest : Text
  shorter : rest.length < text.length

namespace Taken

variable {α β : Type} {text : Text}

def map (f : α → β) (taken : Taken α text) : Taken β text :=
  ⟨f taken.value, taken.rest, taken.shorter⟩

/-- The same piece seen from a text that is at least as long. -/
def within {longer : Text} (taken : Taken α text) (bound : text.length ≤ longer.length) :
    Taken α longer :=
  ⟨taken.value, taken.rest, Nat.lt_of_lt_of_le taken.shorter bound⟩

/-- A value with what is left of a text, provided that something was taken. -/
def ofRest? (value : α) (rest : Text) : Option (Taken α text) :=
  if shorter : rest.length < text.length then some ⟨value, rest, shorter⟩ else none

end Taken

namespace Text

/-- The text behind its first characters of a kind. -/
theorem length_dropWhile_le (drop : Char → Bool) (text : Text) :
    (text.dropWhile drop).length ≤ text.length :=
  (List.dropWhile_sublist drop).length_le

theorem length_lt_length_cons (c : Char) (rest : Text) : rest.length < (c :: rest).length :=
  Nat.lt_succ_self rest.length

def takeChar? (c : Char) : (text : Text) → Option (Taken Unit text)
  | [] => none
  | d :: rest => if d = c then some ⟨(), rest, length_lt_length_cons d rest⟩ else none

def takeWord? (word text : Text) : Option (Taken Unit text) :=
  if matched : word ≠ [] ∧ word.isPrefixOf text then
    some ⟨(), text.drop word.length, by
      have positive := List.length_pos_iff.2 matched.1
      have bound := (List.isPrefixOf_iff_prefix.1 matched.2).length_le
      rw [List.length_drop]
      omega⟩
  else none

def takeHex? (count : Nat) (text : Text) : Option (Taken Nat text) :=
  let digits := text.take count
  if digits.length = count then
    (hexNumber? digits).bind fun n => Taken.ofRest? n (text.drop count)
  else none

end Text

end MailMerge
