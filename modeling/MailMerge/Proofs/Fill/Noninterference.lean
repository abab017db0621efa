import MailMerge.Proofs.Fill.Alike
import MailMerge.Proofs.Fill.KeptMarkup
import MailMerge.Proofs.Run.Erased

set_option autoImplicit false

namespace MailMerge.Fill

open Markup (Element Document)
open Run (Cell eraseData)

/-- Two walks that leave the same but for the data of the elements with a name. -/
structure SameButData (name : Text) (first second : Walked (List Element)) : Prop where
  result : first.result.map (eraseData name) = second.result.map (eraseData name)
  report : first.report = second.report
  warnings : first.warnings = second.warnings
  failure : first.failure.isSome = second.failure.isSome

theorem SameButData.refl (name : Text) (walked : Walked (List Element)) :
    SameButData name walked walked := ⟨rfl, rfl, rfl, rfl⟩

theorem Alike.symm {first second : Text → Option Text} (alike : Alike first second) :
    Alike second first := ⟨fun path => (alike.found path).symm, alike.second_ne, alike.first_ne⟩

namespace Guide

section

variable (guide : Guide) (resolve : Text → Option Text)

theorem asked_fillGroup (group : List Element) :
    (guide.fillGroup group).asked resolve
      = (scan Cell.char guide.markers resolve (guide.row group)).asked := by
  by_cases empty : guide.row group = []
  · rw [fillGroup_of_row_eq_nil empty, empty, scan_nothing rfl]
    rfl
  · have asked := asked_pass guide.markers resolve (Run.Cursor.ofCells (guide.row group))
    have cells : (Run.Cursor.ofCells (guide.row group)).cells = guide.row group := rfl
    rw [cells] at asked
    rw [← asked]
    rw [row] at empty ⊢
    rw [fillGroup, if_neg empty, Dialogue.asked_bind]
    split
    · simp
    · simp

end

section

variable (guide : Guide) {first second : Text → Option Text} (alike : Alike first second)
  {group : List Element}
include alike

theorem sameOrigins_edited (group : List Element) :
    SameOrigins (guide.edited first group) (guide.edited second group) := by
  rw [← result_pieces_row, ← result_pieces_row]
  exact sameOrigins_flatMap (forall₂_pieces (sameButValues_scan alike (guide.row group)) rfl)

theorem inRun_edited_eq_nil_iff (group : List Element) (number index : Nat) :
    Run.inRun index (Run.inParagraph number (guide.edited first group)) = [] ↔
      Run.inRun index (Run.inParagraph number (guide.edited second group)) = [] := by
  have origins := guide.sameOrigins_edited alike group
  simp only [List.eq_nil_iff_forall_not_mem, Run.mem_inRun_inParagraph, not_and]
  constructor
  · intro absent cell member paragraph run
    obtain ⟨other, inside, origin⟩ := (origins cell.origin).2 ⟨cell, member, rfl⟩
    exact absent other inside (origin ▸ paragraph) (origin ▸ run)
  · intro absent cell member paragraph run
    obtain ⟨other, inside, origin⟩ := (origins cell.origin).1 ⟨cell, member, rfl⟩
    exact absent other inside (origin ▸ paragraph) (origin ▸ run)

theorem asked_fillGroup_alike (group : List Element) :
    (guide.fillGroup group).asked first = (guide.fillGroup group).asked second := by
  rw [asked_fillGroup, asked_fillGroup]
  exact (sameButValues_scan alike (guide.row group)).asked_eq

/-- Filling a group gives the same but for the data of the text elements. -/
theorem sameButData_fillGroup
    (paragraphs : ∀ element, element ∈ group → guide.isParagraph element = true) :
    SameButData guide.vocabulary.text ((guide.fillGroup group).run first)
      ((guide.fillGroup group).run second) := by
  by_cases empty : guide.row group = []
  · rw [fillGroup_of_row_eq_nil empty]
    exact .refl _ _
  · have scans : Scan.SameButValues (scan Cell.char guide.markers first (guide.row group))
        (scan Cell.char guide.markers second (guide.row group)) :=
      sameButValues_scan alike (guide.row group)
    have outcomes := scans.outcome_cases Cell.char guide.markers
    rw [← outcome_passed, ← outcome_passed] at outcomes
    rcases outcomes with ⟨tally, success, otherSuccess⟩ | ⟨error, other, failed, otherFailed⟩
    · have rebuilt : (Run.regroup guide.vocabulary group (guide.edited first group)).map
            (eraseData guide.vocabulary.text)
          = (Run.regroup guide.vocabulary group (guide.edited second group)).map
            (eraseData guide.vocabulary.text) :=
        Run.map_eraseData_regroup (guide.placed_edited first paragraphs)
          (guide.placed_edited second paragraphs) (guide.inRun_edited_eq_nil_iff alike group)
      rw [run_fillGroup_of_ok empty success, run_fillGroup_of_ok empty otherSuccess,
        guide.rebuild_edited first paragraphs,
        guide.rebuild_edited second paragraphs]
      -- The counts are the same, so both groups are rebuilt or neither is.
      refine ⟨?_, rfl, rfl, rfl⟩
      dsimp only
      split
      · rfl
      · exact rebuilt
    · rw [run_fillGroup_of_error failed, run_fillGroup_of_error otherFailed]
      exact ⟨rfl, rfl, rfl, rfl⟩

end

end Guide

section

variable {first second : Text → Option Text} (alike : Alike first second) {guide : Guide}
  {elements : List Element} {work : Dialogue (Walked (List Element))}
include alike

theorem Walks.sameButData (walks : Walks guide elements work) :
    SameButData guide.vocabulary.text (work.run first) (work.run second) := by
  induction walks with
  | alone same success => exact .refl _ _
  | group paragraphs => exact guide.sameButData_fillGroup alike paragraphs
  | @inside element work children ih =>
    rw [Dialogue.run_bind, Dialogue.run_bind]
    refine ⟨?_, ih.report, ih.warnings, ih.failure⟩
    have same := Run.eraseData_with_children element ih.result
    exact congrArg (fun erased => [erased]) same
  | @append front behind work next _ _ ih nextIh =>
    rw [Dialogue.run_bind, Dialogue.run_bind, run_followedBy, run_followedBy, ← ih.failure]
    split
    · refine ⟨?_, ih.report, ih.warnings, ih.failure⟩
      simp only [Walked.map, List.map_append, ih.result]
    · refine ⟨?_, ?_, ?_, nextIh.failure⟩
      · simp only [Walked.join, List.map_append, ih.result, nextIh.result]
      · simp only [Walked.join, ih.report, nextIh.report]
      · simp only [Walked.join, ih.warnings, nextIh.warnings]

theorem Walks.asked_eq (walks : Walks guide elements work) :
    work.asked first = work.asked second := by
  induction walks with
  | alone same success => rfl
  | group paragraphs => exact guide.asked_fillGroup_alike alike _
  | inside children ih =>
    rw [Dialogue.asked_bind, Dialogue.asked_bind, ih]
    rfl
  | append front _ ih nextIh =>
    rw [Dialogue.asked_bind, Dialogue.asked_bind, asked_followedBy, asked_followedBy, ih, nextIh,
      (front.sameButData alike).failure]

end

/-- A document without the data of the elements with a name. -/
def eraseDocument (name : Text) (document : Document) : Document :=
  { document with root := eraseData name document.root }

namespace Processor

/-- A part that is read asks what its document asks. -/
theorem asked_fillPart (processor : Processor) (resolve : Text → Option Text) {bytes : List UInt8}
    {document : Document} (read : Document.ofBytes processor.lookahead bytes = .ok document) :
    (processor.fillPart bytes).asked resolve = (processor.fillDocument document).asked resolve := by
  rw [fillPart, read]
  dsimp only
  rw [Dialogue.asked_bind]
  split
  · simp
  · simp

section

variable (processor : Processor) {first second : Text → Option Text} (alike : Alike first second)
include alike

theorem sameButData_fillDocument (document : Document) :
    let filled := (processor.fillDocument document).run first
    let other := (processor.fillDocument document).run second
    eraseDocument processor.guide.vocabulary.text filled.result
        = eraseDocument processor.guide.vocabulary.text other.result ∧
      filled.report = other.report ∧ filled.failure.isSome = other.failure.isSome := by
  intro filled other
  have same := (processor.guide.walks_walk document.root).sameButData alike
  rw [Dialogue.run_bind, Dialogue.run_bind] at same
  have roots : eraseData processor.guide.vocabulary.text
        ((processor.guide.walk document.root).run first).result
      = eraseData processor.guide.vocabulary.text
        ((processor.guide.walk document.root).run second).result :=
    (List.cons.inj same.result).1
  have fills : ∀ resolve, (processor.fillDocument document).run resolve
      = ((processor.guide.walk document.root).run resolve).map fun root =>
        { document with root := root } := by
    intro resolve
    rw [fillDocument, Dialogue.run_bind]
    rfl
  simp only [filled, other, fills]
  exact ⟨congrArg (fun root => ({ document with root := root } : Document)) roots, same.report,
    same.failure⟩

theorem asked_fillDocument_alike (document : Document) :
    (processor.fillDocument document).asked first
      = (processor.fillDocument document).asked second := by
  have same := (processor.guide.walks_walk document.root).asked_eq alike
  simp only [Dialogue.asked_bind, Dialogue.asked_done, List.append_nil] at same
  rw [fillDocument, Dialogue.asked_bind, Dialogue.asked_bind, same]
  rfl

theorem asked_fillPart_alike (bytes : List UInt8) :
    (processor.fillPart bytes).asked first = (processor.fillPart bytes).asked second := by
  cases read : Document.ofBytes processor.lookahead bytes with
  | error error =>
    rw [fillPart, read]
    rfl
  | ok document =>
    rw [processor.asked_fillPart first read, processor.asked_fillPart second read]
    exact processor.asked_fillDocument_alike alike document

theorem isOk_fillPart_of_alike {bytes : List UInt8} {replaced : Replaced}
    (success : ((processor.fillPart bytes).run first).result = .ok replaced) :
    ∃ other, ((processor.fillPart bytes).run second).result = .ok other := by
  obtain ⟨source, read, failure, _⟩ := processor.fillPart_eq_ok success
  have same := (processor.sameButData_fillDocument alike source).2.2
  rw [failure, Option.isSome_none, eq_comm, Option.isSome_eq_false_iff, Option.isNone_iff_eq_none]
    at same
  rw [processor.run_fillPart second read]
  dsimp only
  rw [same]
  exact ⟨_, rfl⟩

end

/-- Answers that find the same paths, with a value that is not empty for each, fill a part alike.
They are asked for the same paths, and with one of them filling succeeds exactly when it does with
the other. Then the reports are the same, and so are the documents but for the data of their text
elements. -/
theorem fillPart_alike (processor : Processor) {first second : Text → Option Text}
    (alike : Alike first second) (bytes : List UInt8) :
    ((∃ replaced, ((processor.fillPart bytes).run first).result = .ok replaced) ↔
      ∃ replaced, ((processor.fillPart bytes).run second).result = .ok replaced) ∧
    (processor.fillPart bytes).asked first = (processor.fillPart bytes).asked second ∧
    ∀ replaced other, ((processor.fillPart bytes).run first).result = .ok replaced →
      ((processor.fillPart bytes).run second).result = .ok other →
      replaced.report = other.report ∧
        ∃ source, Document.ofBytes processor.lookahead bytes = .ok source ∧
          let filled := ((processor.fillDocument source).run first).result
          let otherFilled := ((processor.fillDocument source).run second).result
          replaced.bytes = filled.toBytes ∧ other.bytes = otherFilled.toBytes ∧
            eraseDocument processor.guide.vocabulary.text filled
              = eraseDocument processor.guide.vocabulary.text otherFilled := by
  refine ⟨⟨fun ⟨_, success⟩ => processor.isOk_fillPart_of_alike alike success,
    fun ⟨_, success⟩ => processor.isOk_fillPart_of_alike alike.symm success⟩,
    processor.asked_fillPart_alike alike bytes, ?_⟩
  intro replaced other success otherSuccess
  obtain ⟨source, read, _, rfl⟩ := processor.fillPart_eq_ok success
  obtain ⟨otherSource, otherRead, _, rfl⟩ := processor.fillPart_eq_ok otherSuccess
  obtain rfl : source = otherSource := Except.ok.inj (read.symm.trans otherRead)
  obtain ⟨documents, reports, _⟩ := processor.sameButData_fillDocument alike source
  exact ⟨reports, source, read, rfl, rfl, documents⟩

end Processor

/-- The placeholder begins in a run that is gone afterwards, and another one has no value. The
values differ in their length and in what they hold, and one of them looks like a tag. -/
theorem letter_and_tag_fill_alike :
    let first : Text → Option Text := fun path => if path = ['a'] then some ['A'] else none
    let second : Text → Option Text := fun path =>
      if path = ['a'] then some ['<', 'b', '>'] else none
    let document : List Element → Document := fun runs =>
      .ofRoot ⟨['d'], [], [], [paragraphOf runs], false⟩
    let source := document [textRun ['{', '{'], textRun ['a', '}', '}', '{', '{', 'b', '}', '}']]
    let filled : Text → Document := fun text =>
      document [textRun (text ++ ['{', '{', 'b', '}', '}'])]
    let work := Processor.standard.fillPart source.toBytes
    let escaped : Text := ['&', 'l', 't', ';', 'b', '&', 'g', 't', ';']
    Alike first second ∧
      (work.run first).result = .ok ⟨(filled ['A']).toBytes, ⟨1, 1, 1, 0⟩⟩ ∧
      (work.run second).result = .ok ⟨(filled escaped).toBytes, ⟨1, 1, 1, 0⟩⟩ ∧
      work.asked first = work.asked second ∧
      eraseDocument ['w', ':', 't'] (filled ['A'])
        = eraseDocument ['w', ':', 't'] (filled escaped) := by
  intro first second document source filled work escaped
  have alike : Alike first second := by
    refine ⟨fun path => ?_, fun path => ?_, fun path => ?_⟩
    all_goals
      dsimp only [first, second]
      split <;> simp
  have written : source.Writable := ⟨by decide, by decide⟩
  have read : Document.ofBytes Processor.standard.lookahead source.toBytes = .ok source := by
    rw [Markup.ofBytes_toBytes_eq]
    exact Markup.ofText_written written (by decide)
  have fill : (Processor.standard.fillDocument source).run first
      = ⟨filled ['A'], ⟨1, 1, 1, 0⟩, [], none⟩ := by
    cbv
  have otherFill : (Processor.standard.fillDocument source).run second
      = ⟨filled escaped, ⟨1, 1, 1, 0⟩, [], none⟩ := by
    cbv
  have success : (work.run first).result = .ok ⟨(filled ['A']).toBytes, ⟨1, 1, 1, 0⟩⟩ := by
    rw [Processor.run_fillPart _ _ read, fill]
  have otherSuccess : (work.run second).result
      = .ok ⟨(filled escaped).toBytes, ⟨1, 1, 1, 0⟩⟩ := by
    rw [Processor.run_fillPart _ _ read, otherFill]
  obtain ⟨_, asked, both⟩ := Processor.standard.fillPart_alike alike source.toBytes
  obtain ⟨_, source', read', _, _, same⟩ := both _ _ success otherSuccess
  obtain rfl : source = source' := Except.ok.inj (read.symm.trans read')
  rw [fill, otherFill] at same
  exact ⟨alike, success, otherSuccess, asked, same⟩

end MailMerge.Fill
