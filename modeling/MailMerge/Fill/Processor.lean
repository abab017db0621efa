import MailMerge.Fill.Walk
import MailMerge.Markup.Written

set_option autoImplicit false

namespace MailMerge.Fill

open Markup (Document)

structure Processor where
  guide : Guide
  lookahead : Nat

structure Replaced where
  bytes : List UInt8
  report : Report
  deriving Repr, DecidableEq

/-- What filling a part gives, with the warnings that came up on the way. -/
structure PartOutcome where
  result : Except Error Replaced
  warnings : List Warning

namespace Processor

/-- The processor of a configuration whose delimiters can be looked for. -/
def ofOptions (options : Options) : Except Error Processor := do
  let markers ← options.delimiters.markers
  return ⟨⟨markers, options.vocabulary, options.policy⟩, options.lookahead⟩

def standardMarkers : Markers := ⟨Delimiters.standard, by decide, by decide⟩

def standard : Processor :=
  ⟨⟨standardMarkers, Vocabulary.standard, .truncate⟩, Markup.defaultLookahead⟩

def fillDocument (processor : Processor) (document : Document) : Dialogue (Walked Document) :=
  (processor.guide.walk document.root).bind fun walked =>
    .done (walked.map fun root => { document with root := root })

def fillPart (processor : Processor) (bytes : List UInt8) : Dialogue PartOutcome :=
  match Document.ofBytes processor.lookahead bytes with
  | .error error => .done ⟨.error error, []⟩
  | .ok document =>
    (processor.fillDocument document).bind fun walked =>
      match walked.failure with
      | some error => .done ⟨.error error, walked.warnings⟩
      | none => .done ⟨.ok ⟨walked.result.toBytes, walked.report⟩, walked.warnings⟩

end Processor

end MailMerge.Fill
