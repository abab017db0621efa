import MailMerge.Markup.Element
import MailMerge.Markup.TokenStream

set_option autoImplicit false

namespace MailMerge.Markup

/-- A document part: its root, and the text in front of the root and behind it as it is. The root
alone may lack its end tag. -/
structure Document where
  /-- Everything in front of the root's start tag. -/
  prolog : Text
  root : Element
  /-- Everything behind the root's end tag. -/
  epilogue : Text
  deriving Repr, DecidableEq

/-- What was read of an element behind its start tag: its own data, its children, and the tokens
that follow its end tag. -/
structure Content (limit : Nat) where
  data : Text
  children : List Element
  after : TokenStream
  /-- Reading has used up some of the tokens that were there. -/
  within : after.size ≤ limit

/-- Reads what lies inside the element `name` and its end tag. Only the root may end with the text
instead. -/
def readContent (isRoot : Bool) (name : Text) (stream : TokenStream) :
    Except Error (Content stream.size) :=
  match pulled : stream.next with
  | (.error error, _) => .error error
  | (.ok none, after) =>
    if isRoot then .ok ⟨[], [], after, TokenStream.size_next_le pulled⟩
    else .error (.unexpectedEnd name)
  | (.ok (some token), after) =>
    have shorter : after.size < stream.size := TokenStream.size_next_lt pulled
    match token with
    | .data text => do
      let rest ← readContent isRoot name after
      return ⟨text ++ rest.data, rest.children, rest.after,
        Nat.le_trans rest.within (Nat.le_of_lt shorter)⟩
    | .closing found =>
      if found = name then .ok ⟨[], [], after, Nat.le_of_lt shorter⟩
      else .error (.mismatchedTag name found stream.offset)
    | .opening tag => do
      let inner ← readContent false tag.name after
      have nested := inner.within
      let rest ← readContent isRoot name inner.after
      let child := Element.ofTag tag inner.data inner.children
      return ⟨rest.data, child :: rest.children, rest.after,
        Nat.le_trans rest.within (Nat.le_trans nested (Nat.le_of_lt shorter))⟩
termination_by stream.size

namespace Document

def ofRoot (root : Element) : Document := ⟨[], root, []⟩

/-- Reads a text whose start tags take at most `lookahead` bytes each. -/
def ofText (lookahead : Nat) (text : Text) : Except Error Document :=
  match (TokenStream.ofText lookahead text).first with
  | (.error error, _) => .error error
  | (.ok (prolog, tag), stream) => do
    let content ← readContent true tag.name stream
    return ⟨prolog, Element.ofTag tag content.data content.children, content.after.rest⟩

def ofBytes (lookahead : Nat) (bytes : List UInt8) : Except Error Document :=
  match Utf8.decode bytes with
  | .ok text => ofText lookahead text
  | .error fault => .error (.encoding fault)

end Document

end MailMerge.Markup
