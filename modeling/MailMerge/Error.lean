import MailMerge.Text.Quoted
import MailMerge.Text.Utf8

set_option autoImplicit false

namespace MailMerge

inductive MarkupProblem where
  | attributeNameExpected
  | attributeValueMissing
  | attributeValueUnquoted
  | attributeValueUnclosed
  | elementNameExpected
  | startTagUnclosed
  | endTagNameExpected
  | endTagUnclosed
  | unsupportedConstruct
  deriving Repr, DecidableEq

def MarkupProblem.message : MarkupProblem → String
  | attributeNameExpected => "attribute name must start with letter, underscore, or colon"
  | attributeValueMissing => "attribute value required"
  | attributeValueUnquoted => "attribute value must be double-quoted"
  | attributeValueUnclosed => "attribute value is not closed within the lookahead window"
  | elementNameExpected => "expected element name"
  | startTagUnclosed => "start tag not closed within the lookahead window"
  | endTagNameExpected => "expected element name in end tag"
  | endTagUnclosed => "expected '>' to close end tag"
  | unsupportedConstruct => "unsupported markup construct"

inductive DelimiterSide where
  | opening
  | closing
  deriving Repr, DecidableEq

/-- Everything that stops the filling of a document part. Positions count bytes from the beginning
of the part; the offset of a placeholder counts the units of its paragraph group from 1. -/
inductive Error where
  /-- The part is not UTF-8. -/
  | encoding (fault : Utf8.Fault)
  /-- No token matches at a position. -/
  | malformed (problem : MarkupProblem) (position : Nat)
  /-- An end tag closes another element than the innermost open one. -/
  | mismatchedTag (expected found : Text) (position : Nat)
  /-- The part ends inside a nested element. -/
  | unexpectedEnd (name : Text)
  /-- The part holds no element. -/
  | noRootElement
  /-- An opening delimiter with no closing delimiter after it. -/
  | unterminatedPlaceholder (offset : Nat) (excerpt : Text)
  /-- A delimiter that no scan could look for. -/
  | emptyDelimiter (side : DelimiterSide)
  deriving Repr, DecidableEq

def Error.message : Error → String
  | encoding fault => s!"document part is not valid UTF-8: {fault.message}"
  | malformed problem position => s!"malformed markup at byte {position}: {problem.message}"
  | mismatchedTag expected found position =>
    let opened := String.ofList expected
    let closed := String.ofList found
    s!"mismatched end tag at byte {position}: <{opened}> closed by </{closed}>"
  | unexpectedEnd name => s!"unexpected end of input inside <{String.ofList name}>"
  | noRootElement => "no root element found"
  | unterminatedPlaceholder offset excerpt =>
    s!"unterminated placeholder at text offset {offset}: {String.ofList (Text.quoted excerpt)}"
  | emptyDelimiter .opening => "invalid delimiters: start delimiter is empty"
  | emptyDelimiter .closing => "invalid delimiters: end delimiter is empty"

end MailMerge
