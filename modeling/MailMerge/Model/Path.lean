import MailMerge.Json.Value
import MailMerge.Text.Blank

set_option autoImplicit false

namespace MailMerge.Model

open Json (Value)

/-- The segments of a path, which is cut at its points: without the blanks around them, and without
those that hold nothing else. -/
def segments (path : Text) : List Text :=
  ((Text.splitAt '.' path).map Text.trim).filter (· ≠ [])

/-- One step into a value: a member of an object by its key, an item of an array by its index. -/
def step? (value : Value) (segment : Text) : Option Value :=
  match value with
  | .object members => Json.member? segment members
  | .array items => (Text.toWord? segment).bind fun index => items[index]?
  | _ => none

def lookup? (model : Value) (path : Text) : Option Value :=
  (segments path).foldlM step? model

/-- A value as text to fill in: strings as they are, null as nothing, all else as JSON. -/
def render : Value → Text
  | .string text => text
  | .null => []
  | value => value.written

def resolve? (model : Value) (path : Text) : Option Text := (lookup? model path).map render

end MailMerge.Model
