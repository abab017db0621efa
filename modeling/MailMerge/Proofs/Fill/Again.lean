import MailMerge.Proofs.Fill.KeptMarkup
import MailMerge.Proofs.Fill.NothingReplaced
import MailMerge.Proofs.Markup.Window

set_option autoImplicit false

namespace MailMerge.Fill

open Markup (Element Document)

/-- A walk without values leaves everything as it is. -/
theorem Walks.result_of_never {guide : Guide} {elements : List Element}
    {work : Dialogue (Walked (List Element))} (walks : Walks guide elements work) :
    (work.run fun _ => none).result = elements := by
  induction walks with
  | alone same success => exact same
  | group paragraphs => exact guide.result_fillGroup_of_findsNothing fun _ _ => rfl
  | @inside element work children ih =>
    rw [Dialogue.run_bind]
    show [{ element with children := (work.run fun _ => none).result }] = [element]
    rw [ih]
    cases element
    rfl
  | append first second front behind =>
    rw [Dialogue.run_bind, result_followedBy, front]
    split
    · rfl
    · rw [behind]

namespace Processor

variable (processor : Processor)

theorem result_fillDocument_of_never (document : Document) :
    ((processor.fillDocument document).run fun _ => none).result = document := by
  have root := (processor.guide.walks_walk document.root).result_of_never
  rw [Dialogue.run_bind] at root
  rw [fillDocument, Dialogue.run_bind]
  show { document with root := ((processor.guide.walk document.root).run fun _ => none).result }
    = document
  rw [(List.cons.inj root).1]

/-- A part that is filled without values is the document that it is read as, written. Filling it
once more gives the same again, exactly if the written start tags fit into the window. -/
theorem fillPart_again {bytes : List UInt8} {replaced : Replaced}
    (success : ((processor.fillPart bytes).run fun _ => none).result = .ok replaced) :
    ∃ document, Document.ofBytes processor.lookahead bytes = .ok document ∧
      replaced.bytes = document.toBytes ∧
      ∀ other, ((processor.fillPart replaced.bytes).run fun _ => none).result = .ok other ↔
        document.root.TagsFit (max processor.lookahead 1) ∧ other = replaced := by
  obtain ⟨document, read, _, rfl⟩ := processor.fillPart_eq_ok success
  have same := processor.result_fillDocument_of_never document
  have written := Markup.ofText_written_eq_ok_iff (Markup.writable_of_ofBytes read)
    processor.lookahead
  refine ⟨document, read, by rw [same], fun other => ?_⟩
  dsimp only
  rw [same]
  constructor
  · intro again
    obtain ⟨source, readAgain, _, rfl⟩ := processor.fillPart_eq_ok again
    rw [Markup.ofBytes_toBytes_eq] at readAgain
    obtain ⟨fits, rfl⟩ := (written _).1 readAgain
    exact ⟨fits, by rw [same]⟩
  · rintro ⟨fits, rfl⟩
    have readAgain : Document.ofBytes processor.lookahead document.toBytes = .ok document := by
      rw [Markup.ofBytes_toBytes_eq]
      exact (written _).2 ⟨fits, rfl⟩
    rw [processor.run_fillPart _ readAgain, ← processor.run_fillPart _ read, success, same]

end Processor

/-- A start tag of 15 bytes with no space between its attributes. It is written with one, and then
it does not fit into a window of 15 bytes any more. -/
theorem respelled_tag_outgrows_window :
    let processor : Processor := ⟨Guide.standard, 15⟩
    let source : Text := ['<', 'a', ' ', 'x', '=', '"', '1', '"', 'y', '=', '"', '2', '"', '/', '>']
    let written : Text :=
      ['<', 'a', ' ', 'x', '=', '"', '1', '"', ' ', 'y', '=', '"', '2', '"', '/', '>']
    ((processor.fillPart (Text.bytes source)).run fun _ => none).result
        = .ok ⟨Text.bytes written, ⟨0, 0, 0, 0⟩⟩ ∧
      ((processor.fillPart (Text.bytes written)).run fun _ => none).result
        = .error (.malformed .attributeNameExpected 14) := by
  decide +kernel

/-- In a window of one byte more, the same tag is written and read again. -/
theorem respelled_tag_fits_window :
    let processor : Processor := ⟨Guide.standard, 16⟩
    let source : Text := ['<', 'a', ' ', 'x', '=', '"', '1', '"', 'y', '=', '"', '2', '"', '/', '>']
    let document : Document :=
      ⟨[], ⟨['a'], [⟨['x'], ['1']⟩, ⟨['y'], ['2']⟩], [], [], true⟩, []⟩
    let replaced : Replaced := ⟨document.toBytes, ⟨0, 0, 0, 0⟩⟩
    ((processor.fillPart (Text.bytes source)).run fun _ => none).result = .ok replaced ∧
      replaced.bytes ≠ Text.bytes source ∧
      ((processor.fillPart replaced.bytes).run fun _ => none).result = .ok replaced := by
  intro processor source document replaced
  have read : Document.ofBytes processor.lookahead (Text.bytes source) = .ok document := by
    decide +kernel
  have success : ((processor.fillPart (Text.bytes source)).run fun _ => none).result
      = .ok replaced := by
    decide +kernel
  obtain ⟨found, readAgain, _, again⟩ := processor.fillPart_again success
  obtain rfl : document = found := Except.ok.inj (read.symm.trans readAgain)
  exact ⟨success, by decide, (again replaced).2 ⟨by decide, rfl⟩⟩

end MailMerge.Fill
