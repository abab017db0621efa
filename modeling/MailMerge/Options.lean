import MailMerge.Error
import MailMerge.Markup.TokenStream

set_option autoImplicit false

namespace MailMerge

structure Delimiters where
  opening : Text
  closing : Text
  deriving Repr, DecidableEq

/-- Delimiters that can be looked for: neither is empty. -/
structure Markers extends Delimiters where
  opening_ne : opening ≠ []
  closing_ne : closing ≠ []

/-- The delimiters as markers, unless one is empty. -/
def Delimiters.markers (delimiters : Delimiters) : Except Error Markers :=
  if openingEmpty : delimiters.opening = [] then .error (.emptyDelimiter .opening)
  else if closingEmpty : delimiters.closing = [] then .error (.emptyDelimiter .closing)
  else .ok ⟨delimiters, openingEmpty, closingEmpty⟩

structure Vocabulary where
  paragraph : Text
  run : Text
  text : Text
  /-- The element in which a run keeps its formatting. -/
  properties : Text
  deriving Repr, DecidableEq

/-- What happens to paragraphs behind a sibling that is not a paragraph. -/
inductive SiblingPolicy where
  /-- Only the leading paragraphs of an element are filled. -/
  | truncate
  /-- Every stretch of paragraphs is filled, and what lies between them is searched. -/
  | split
  deriving Repr, DecidableEq

structure Options where
  delimiters : Delimiters
  vocabulary : Vocabulary
  policy : SiblingPolicy
  lookahead : Nat
  deriving Repr, DecidableEq

def Delimiters.standard : Delimiters := ⟨['{', '{'], ['}', '}']⟩

def Vocabulary.standard : Vocabulary :=
  ⟨['w', ':', 'p'], ['w', ':', 'r'], ['w', ':', 't'], ['w', ':', 'r', 'P', 'r']⟩

def Options.standard : Options :=
  ⟨Delimiters.standard, Vocabulary.standard, .truncate, Markup.defaultLookahead⟩

end MailMerge
