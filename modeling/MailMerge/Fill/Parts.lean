import MailMerge.Fill.Processor

set_option autoImplicit false

namespace MailMerge.Fill

structure Part where
  name : Text
  bytes : List UInt8
  deriving Repr, DecidableEq

structure PartResult where
  name : Text
  outcome : PartOutcome

def Part.fill (processor : Processor) (part : Part) : Dialogue PartResult :=
  (processor.fillPart part.bytes).bind fun outcome => .done ⟨part.name, outcome⟩

/-- Fills parts one after the other, each on its own, with results in the order of the parts. -/
def fillParts (processor : Processor) : List Part → Dialogue (List PartResult)
  | [] => .done []
  | part :: rest =>
    (part.fill processor).bind fun result =>
      (fillParts processor rest).bind fun results => .done (result :: results)

def PartResult.report? (result : PartResult) : Option Report :=
  match result.outcome.result with
  | .ok replaced => some replaced.report
  | .error _ => none

/-- The sum of the reports of all parts that were filled. -/
def totalReport (results : List PartResult) : Report :=
  (results.filterMap PartResult.report?).foldl (· + ·) 0

end MailMerge.Fill
