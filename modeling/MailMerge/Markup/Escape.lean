import MailMerge.Text.Basic

set_option autoImplicit false

namespace MailMerge.Markup

def isMarkupChar (c : Char) : Bool := c = '&' || c = '<' || c = '>'

def escapeChar (c : Char) : Text :=
  if c = '&' then ['&', 'a', 'm', 'p', ';']
  else if c = '<' then ['&', 'l', 't', ';']
  else if c = '>' then ['&', 'g', 't', ';']
  else [c]

/-- Can a text stand as character data as it is? -/
def isPlain (text : Text) : Bool := text.all fun c => !isMarkupChar c

inductive Escaped where
  /-- The text itself. -/
  | same (text : Text)
  /-- A new text, with references in it. -/
  | rewritten (data : Text)
  deriving Repr, DecidableEq

def Escaped.data : Escaped → Text
  | same text => text
  | rewritten data => data

/-- Escapes a text. One that can stand as it is is not written anew. -/
def Escaped.ofText (text : Text) : Escaped :=
  if isPlain text then .same text else .rewritten (text.flatMap escapeChar)

/-- A plain text as character data: the three characters that could be taken for markup are written
as references. -/
def escape (text : Text) : Text := (Escaped.ofText text).data

theorem escapeChar_of_not_isMarkupChar {c : Char} (plain : isMarkupChar c = false) :
    escapeChar c = [c] := by
  simp only [isMarkupChar, Bool.or_eq_false_iff, decide_eq_false_iff_not] at plain
  simp only [escapeChar, plain, ↓reduceIte]

theorem flatMap_escapeChar_of_isPlain {text : Text} (plain : isPlain text = true) :
    text.flatMap escapeChar = text := by
  induction text with
  | nil => rfl
  | cons c rest ih =>
    simp only [isPlain, List.all_cons, Bool.and_eq_true, Bool.not_eq_true'] at plain
    rw [List.flatMap_cons, escapeChar_of_not_isMarkupChar plain.1, ih plain.2]
    rfl

/-- A text that is not written anew would be written as it is. -/
theorem escape_eq_flatMap (text : Text) : escape text = text.flatMap escapeChar := by
  unfold escape Escaped.ofText
  split
  · rename_i plain
    exact (flatMap_escapeChar_of_isPlain plain).symm
  · rfl

end MailMerge.Markup
