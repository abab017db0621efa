import MailMerge.Proofs.Fill.Groups
import MailMerge.Proofs.Fill.KeptFrame
import MailMerge.Proofs.Markup.Parsed
import MailMerge.Proofs.Markup.References
import MailMerge.Proofs.Run.Writable

set_option autoImplicit false

namespace MailMerge.Fill

open Markup (Element Document AllWritable)
open Run (Cell)

/-- A scan leaves a bracket only where one was. -/
theorem notMem_units {α : Type} {char : α → Option Char} {scanned : Scan α}
    (plain : some '<' ∉ scanned.source.map char) : some '<' ∉ scanned.units char := by
  induction scanned with
  | finished rest => exact plain
  | unterminated before rest => exact plain
  | unresolved before span path next ih =>
    rw [Scan.source, ← List.append_assoc, List.map_append, List.mem_append, not_or] at plain
    rw [Scan.units, List.mem_append, not_or]
    exact ⟨plain.1, ih plain.2⟩
  | replaced before span path value next ih =>
    simp only [Scan.source, List.map_append, List.mem_append, not_or] at plain
    have written : some '<' ∉ (Markup.escape value).map some := by
      simpa using (Markup.referenced_escape value).not_less
    rw [Scan.units, List.mem_append, List.mem_append, not_or, not_or]
    exact ⟨⟨plain.1, written⟩, ih plain.2.2⟩

namespace Guide

section

variable (guide : Guide) (resolve : Text → Option Text) {group : List Element}

theorem notMem_textOf_edited (writable : AllWritable group) :
    '<' ∉ Run.textOf (guide.edited resolve group) := by
  have row : some '<' ∉ (guide.row group).map Cell.char := by
    intro member
    obtain ⟨paragraph, run, inGroup, inParagraph, bracket⟩ :=
      Run.exists_run_of_mem_flatten guide.vocabulary member
    have runWritable := (writable paragraph inGroup).inside inParagraph
    exact Run.notMem_runText guide.vocabulary (fun _ inRun => runWritable.inside inRun) bracket
  have units : some '<' ∉ (guide.edited resolve group).map Cell.char := by
    rw [map_char_edited]
    apply notMem_units
    rwa [source_scan, List.map_id]
  intro member
  obtain ⟨cell, inEdited, char⟩ := List.mem_filterMap.1 member
  exact units (char ▸ List.mem_map_of_mem inEdited)

theorem allWritable_fillGroup
    (paragraphs : ∀ element, element ∈ group → guide.isParagraph element = true)
    (writable : AllWritable group) :
    AllWritable ((guide.fillGroup group).run resolve).result := by
  rcases guide.result_fillGroup_cases resolve paragraphs with same | regrouped
  · rwa [same]
  · rw [regrouped]
    exact Run.allWritable_regroup (guide.placed_edited resolve paragraphs)
      (guide.notMem_textOf_edited resolve writable) writable

end

end Guide

section

variable {guide : Guide} {elements : List Element} {work : Dialogue (Walked (List Element))}
  (resolve : Text → Option Text)

/-- A walk adds no element to a list and takes none out. -/
theorem Walks.length_result (walks : Walks guide elements work) :
    (work.run resolve).result.length = elements.length := by
  induction walks with
  | alone same success => rw [Dialogue.run_done, same]
  | group paragraphs => exact guide.length_result_fillGroup resolve paragraphs
  | inside children ih =>
    rw [Dialogue.run_bind]
    rfl
  | append first second front behind =>
    rw [Dialogue.run_bind, result_followedBy, List.length_append, front, List.length_append]
    split
    · rfl
    · rw [behind]

theorem Walks.allWritable (walks : Walks guide elements work) (writable : AllWritable elements) :
    AllWritable (work.run resolve).result := by
  induction walks with
  | alone same success => rwa [Dialogue.run_done, same]
  | group paragraphs => exact guide.allWritable_fillGroup resolve paragraphs writable
  | inside children ih =>
    have own := List.forall_mem_singleton.1 writable
    have length := children.length_result resolve
    rw [Dialogue.run_bind]
    refine List.forall_mem_singleton.2 (own.withChildren (ih fun _ => own.inside) fun none => ?_)
    rw [none, List.length_nil] at length
    exact List.eq_nil_of_length_eq_zero length
  | append first second front behind =>
    obtain ⟨here, there⟩ := List.forall_mem_append.1 writable
    rw [Dialogue.run_bind, result_followedBy]
    refine List.forall_mem_append.2 ⟨front here, ?_⟩
    split
    · exact there
    · exact behind there

end

namespace Processor

variable (processor : Processor)

/-- A filled document is read back if the document was. -/
theorem writable_fillDocument (resolve : Text → Option Text) {document : Document}
    (writable : document.Writable) :
    ((processor.fillDocument document).run resolve).result.Writable := by
  have root := (processor.guide.walks_walk document.root).allWritable resolve
    (List.forall_mem_singleton.2 writable.root)
  rw [Dialogue.run_bind] at root
  rw [fillDocument, Dialogue.run_bind]
  exact ⟨writable.prolog, List.forall_mem_singleton.1 root⟩

theorem prolog_fillDocument (resolve : Text → Option Text) (document : Document) :
    ((processor.fillDocument document).run resolve).result.prolog = document.prolog := by
  rw [fillDocument, Dialogue.run_bind]
  rfl

theorem epilogue_fillDocument (resolve : Text → Option Text) (document : Document) :
    ((processor.fillDocument document).run resolve).result.epilogue = document.epilogue := by
  rw [fillDocument, Dialogue.run_bind]
  rfl

/-- A part that is read is filled as a document and written. -/
theorem run_fillPart (resolve : Text → Option Text) {bytes : List UInt8} {document : Document}
    (read : Document.ofBytes processor.lookahead bytes = .ok document) :
    (processor.fillPart bytes).run resolve =
      let walked := (processor.fillDocument document).run resolve
      match walked.failure with
      | some error => ⟨.error error, walked.warnings⟩
      | none => ⟨.ok ⟨walked.result.toBytes, walked.report⟩, walked.warnings⟩ := by
  rw [fillPart, read]
  dsimp only
  rw [Dialogue.run_bind]
  cases ((processor.fillDocument document).run resolve).failure with
  | some error => rfl
  | none => rfl

/-- A part is filled only if it is read, and then the filled document is written. -/
theorem fillPart_eq_ok {resolve : Text → Option Text} {bytes : List UInt8} {replaced : Replaced}
    (success : ((processor.fillPart bytes).run resolve).result = .ok replaced) :
    ∃ source, Document.ofBytes processor.lookahead bytes = .ok source ∧
      ((processor.fillDocument source).run resolve).failure = none ∧
      replaced = ⟨((processor.fillDocument source).run resolve).result.toBytes,
        ((processor.fillDocument source).run resolve).report⟩ := by
  cases read : Document.ofBytes processor.lookahead bytes with
  | error error =>
    rw [fillPart, read] at success
    cases success
  | ok source =>
    rw [processor.run_fillPart resolve read] at success
    dsimp only at success
    split at success
    · cases success
    · rename_i failure
      exact ⟨source, rfl, failure, (Except.ok.inj success).symm⟩

/-- The bytes of a filled part are read as the filled document, by anyone who can read its start
tags, and writing this document gives the same bytes again. The text around the root is that of the
source. -/
theorem fillPart_read_back {resolve : Text → Option Text} {bytes : List UInt8}
    {replaced : Replaced}
    (success : ((processor.fillPart bytes).run resolve).result = .ok replaced) :
    ∃ source filled, Document.ofBytes processor.lookahead bytes = .ok source ∧
      ((processor.fillDocument source).run resolve).result = filled ∧
      filled.prolog = source.prolog ∧ filled.epilogue = source.epilogue ∧
      replaced.bytes = filled.toBytes ∧
      ∀ lookahead, filled.root.TagsFit lookahead →
        Document.ofBytes lookahead replaced.bytes = .ok filled ∧
        (Document.ofBytes lookahead replaced.bytes).map Document.toBytes = .ok replaced.bytes := by
  obtain ⟨source, read, _, rfl⟩ := processor.fillPart_eq_ok success
  have writable := processor.writable_fillDocument resolve (Markup.writable_of_ofBytes read)
  refine ⟨source, _, read, rfl, processor.prolog_fillDocument resolve source,
    processor.epilogue_fillDocument resolve source, rfl, fun lookahead fits => ?_⟩
  have readBack := Markup.ofText_written writable fits
  rw [Markup.ofBytes_toBytes_eq, readBack]
  exact ⟨rfl, rfl⟩

end Processor

/-- The value closes an element that is open, opens another one and holds a reference. It is read
back as text. -/
theorem tags_in_value_read_back :
    let source : Document := ⟨['<', '?', 'x', '?', '>'], ⟨['d'], [], [],
      [paragraphOf [textRun ['x', '{', '{', 'a', '}', '}'], bookmarkEnd]], false⟩, ['\n']⟩
    let value : Text := ['<', '/', 'w', ':', 't', '>', '<', 'b', '>', '&', 'l', 't', ';']
    let filled : Document := ⟨['<', '?', 'x', '?', '>'], ⟨['d'], [], [],
      [paragraphOf [textRun ('x' :: Markup.escape value), bookmarkEnd]], false⟩, ['\n']⟩
    ((Processor.standard.fillPart source.toBytes).run fun _ => some value).result
        = .ok ⟨filled.toBytes, ⟨1, 1, 0, 0⟩⟩ ∧
      Document.ofBytes 16 filled.toBytes = .ok filled := by
  intro source value filled
  have written : source.Writable := ⟨by decide, by decide⟩
  have read : Document.ofBytes Processor.standard.lookahead source.toBytes = .ok source := by
    rw [Markup.ofBytes_toBytes_eq]
    exact Markup.ofText_written written (by decide)
  have fill : (Processor.standard.fillDocument source).run (fun _ => some value)
      = ⟨filled, ⟨1, 1, 0, 0⟩, [], none⟩ := by
    cbv
  have success : ((Processor.standard.fillPart source.toBytes).run fun _ => some value).result
      = .ok ⟨filled.toBytes, ⟨1, 1, 0, 0⟩⟩ := by
    rw [Processor.run_fillPart _ _ read, fill]
  obtain ⟨source', filled', read', same, _, _, _, readBack⟩ :=
    Processor.standard.fillPart_read_back success
  obtain rfl : source = source' := Except.ok.inj (read.symm.trans read')
  rw [fill] at same
  obtain rfl : filled = filled' := same
  exact ⟨success, (readBack 16 (by decide)).1⟩

end MailMerge.Fill
