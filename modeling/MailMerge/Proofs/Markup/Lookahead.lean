import MailMerge.Proofs.Markup.Offset
import MailMerge.Proofs.Markup.OneLayout

set_option autoImplicit false

namespace MailMerge.Markup

/-- The same tokens with another window for start tags. -/
def TokenStream.withWindow (limit : Nat) (stream : TokenStream) : TokenStream :=
  { stream with lookahead := limit }

/-- Reading stopped because no token matches. -/
def IsMalformed {α : Type} (outcome : Except Error α) : Prop :=
  ∃ problem position, outcome = .error (.malformed problem position)

/-- Reading with the smaller window stopped, or both went the same way. -/
def Widens {α : Type} (more : Nat) (narrow wide : Except Error α × TokenStream) : Prop :=
  IsMalformed narrow.1 ∨ wide = (narrow.1, narrow.2.withWindow more)

/-- What is made of an outcome goes the same way. -/
theorem Widens.map {α β : Type} {more : Nat} {narrow wide : Except Error α × TokenStream}
    (widens : Widens more narrow wide) (f : α → β) :
    Widens more (narrow.map (Except.map f) id) (wide.map (Except.map f) id) := by
  rcases widens with ⟨problem, position, failed⟩ | same
  · apply Or.inl
    refine ⟨problem, position, ?_⟩
    show Except.map f narrow.1 = _
    rw [failed]
    rfl
  · apply Or.inr
    rw [same]
    rfl

/-- A start tag that is read in a window is read in a larger one. -/
theorem readStartTag_of_le {limit more : Nat} (le : limit ≤ more) {reader after : Reader}
    {tag : StartTag} {behind : Text} (bracket : reader.rest = '<' :: behind)
    (success : readStartTag limit reader = .ok (tag, after)) :
    readStartTag more reader = .ok (tag, after) := by
  obtain ⟨text, opens, fits, consumed⟩ := startTagText_of_readStartTag bracket success
  obtain ⟨place, read⟩ := opens.gives (Nat.le_trans fits le) reader.offset after.rest
  rw [← consumed] at read
  have passed : after.offset + Text.byteLength after.rest
      = reader.offset + Text.byteLength reader.rest := (reaches_readStartTag success).sum_eq
  have again : place + Text.byteLength after.rest
      = reader.offset + Text.byteLength reader.rest := (reaches_readStartTag read).sum_eq
  have same : place = after.offset := by omega
  rwa [same] at read

section

variable {stream : TokenStream} {more : Nat} (le : stream.lookahead ≤ more)
include le

theorem openTag_withWindow {place : Reader}
    (begins : TokenStream.beginsStartTag place.rest = true) :
    Widens more (stream.openTag place) ((stream.withWindow more).openTag place) := by
  obtain ⟨c, behind, bracket, _⟩ := exists_bracket_of_beginsStartTag begins
  cases read : readStartTag stream.lookahead place with
  | error problem =>
    apply Or.inl
    refine ⟨problem.1, problem.2.offset, ?_⟩
    rw [TokenStream.openTag, read]
  | ok opened =>
    have wide : readStartTag (stream.withWindow more).lookahead place = .ok opened :=
      readStartTag_of_le le bracket read
    apply Or.inr
    rw [TokenStream.openTag, TokenStream.openTag, read, wide]
    rfl

omit le in
/-- An end tag may be as long as it likes. -/
theorem closeTag_withWindow (place : Reader) :
    Widens more (stream.closeTag place) ((stream.withWindow more).closeTag place) := by
  apply Or.inr
  rw [TokenStream.closeTag, TokenStream.closeTag]
  cases readEndTag place <;> rfl

theorem tokenAt_withWindow (place : Reader) :
    Widens more (stream.tokenAt place) ((stream.withWindow more).tokenAt place) := by
  by_cases begins : TokenStream.beginsStartTag place.skipSpace.rest = true
  · rw [tokenAt_eq_openTag begins, tokenAt_eq_openTag begins]
    exact (openTag_withWindow le begins).map _
  · by_cases ends : TokenStream.beginsEndTag place.rest = true
    · have noStart := Bool.eq_false_iff.2 begins
      rw [tokenAt_eq_closeTag noStart ends, tokenAt_eq_closeTag noStart ends]
      exact (closeTag_withWindow place).map _
    · -- Neither data nor an unknown construct is read in a window.
      apply Or.inr
      unfold TokenStream.tokenAt
      split
      · rfl
      · rw [if_neg begins, if_neg begins, if_neg ends, if_neg ends]
        split <;> rfl

theorem next_withWindow : Widens more stream.next (stream.withWindow more).next := by
  obtain ⟨reader, limit, phase, owed⟩ := stream
  cases phase with
  | finished => exact Or.inr rfl
  | content =>
    cases owed with
    | some name => exact Or.inr rfl
    | none => exact tokenAt_withWindow le reader
  | afterEndTag =>
    cases owed with
    | some name => exact Or.inr rfl
    | none => exact tokenAt_withWindow le reader.skipSpace

theorem first_withWindow : Widens more stream.first (stream.withWindow more).first := by
  cases cut : TokenStream.cutAtStartTag? stream.reader.rest with
  | none =>
    have same : TokenStream.cutAtStartTag? (stream.withWindow more).reader.rest = none := cut
    apply Or.inr
    rw [TokenStream.first, TokenStream.first]
    simp only [cut, same]
    rfl
  | some parts =>
    have begins : TokenStream.beginsStartTag parts.2 = true := (cutAtStartTag?_eq_some cut).2.2
    have same : TokenStream.cutAtStartTag? (stream.withWindow more).reader.rest
        = some (parts.1, parts.2) := cut
    rw [first_eq_openTag cut, first_eq_openTag same]
    exact (openTag_withWindow le begins).map _

end

/-- Reading a token leaves the window as it is. -/
theorem TokenRead.lookahead {stream after : TokenStream} {token : Token}
    (read : TokenRead stream token after) : after.lookahead = stream.lookahead := by
  cases read <;> rfl

theorem lookahead_of_contentRead {isRoot : Bool} {name data : Text} {stream final : TokenStream}
    {children : List Element} (read : ContentRead isRoot name stream data children final)
    (inner : isRoot = false) : final.lookahead = stream.lookahead := by
  induction read with
  | ended => cases inner
  | closed next => exact (tokenRead_of_next next).lookahead
  | text next _ ih => rw [ih inner, (tokenRead_of_next next).lookahead]
  | child next _ _ ownIh ih => rw [ih inner, ownIh rfl, (tokenRead_of_next next).lookahead]

/-- What is read inside an element, with another window for what follows it. -/
def insideWithWindow (more : Nat) :
    Text × List Element × TokenStream → Text × List Element × TokenStream
  | (data, children, final) => (data, children, final.withWindow more)

section

variable {more : Nat}

/-- A token that is read in a window is read in a larger one. -/
theorem next_withWindow_of_ok {stream after : TokenStream} {token : Option Token}
    (le : stream.lookahead ≤ more) (next : stream.next = (.ok token, after)) :
    (stream.withWindow more).next = (.ok token, after.withWindow more) := by
  rcases next_withWindow le with ⟨problem, position, failed⟩ | same
  · rw [next] at failed
    cases failed
  · rw [same, next]

theorem readInside_withWindow {isRoot : Bool} {name : Text} {stream : TokenStream}
    (le : stream.lookahead ≤ more) :
    IsMalformed (readInside isRoot name stream) ∨
      readInside isRoot name (stream.withWindow more)
        = (readInside isRoot name stream).map (insideWithWindow more) := by
  induction isRoot, name, stream using readInside_induction with
  | stopped isRoot name stream outcome after next stop =>
    rw [readInside_eq, readInside_eq, next]
    cases outcome with
    | error error =>
      rcases next_withWindow le with ⟨problem, position, failed⟩ | same
      · rw [next] at failed
        cases failed
        exact Or.inl ⟨problem, position, rfl⟩
      · apply Or.inr
        rw [same, next]
        rfl
    | ok token =>
      cases token with
      | some token => exact absurd rfl (stop token)
      | none =>
        apply Or.inr
        rw [next_withWindow_of_ok le next]
        cases isRoot <;> rfl
  | closing isRoot name stream found after next =>
    apply Or.inr
    rw [readInside_eq, readInside_eq, next, next_withWindow_of_ok le next]
    dsimp only
    split <;> rfl
  | data isRoot name stream piece after next ih =>
    have behind : after.lookahead ≤ more := (tokenRead_of_next next).lookahead ▸ le
    rw [readInside_eq, readInside_eq, next, next_withWindow_of_ok le next]
    dsimp only
    rcases ih behind with ⟨problem, position, failed⟩ | same
    · apply Or.inl
      rw [failed]
      exact ⟨problem, position, rfl⟩
    · apply Or.inr
      rw [same]
      cases readInside isRoot name after <;> rfl
  | opening isRoot name stream tag after next innerIh restIh =>
    have opened : after.lookahead ≤ more := (tokenRead_of_next next).lookahead ▸ le
    rw [readInside_eq, readInside_eq, next, next_withWindow_of_ok le next]
    dsimp only
    rcases innerIh opened with ⟨problem, position, failed⟩ | inner
    · apply Or.inl
      rw [failed]
      exact ⟨problem, position, rfl⟩
    rw [inner]
    cases nested : readInside false tag.name after with
    | error error => exact Or.inr rfl
    | ok content =>
      obtain ⟨innerData, innerChildren, behind⟩ := content
      have read := contentRead_of_readInside nested
      have closed := lookahead_of_contentRead read rfl
      dsimp only [bind, Except.bind, Except.map, insideWithWindow]
      rcases restIh innerData innerChildren behind read (closed ▸ opened) with
        ⟨problem, position, failed⟩ | same
      · apply Or.inl
        rw [failed]
        exact ⟨problem, position, rfl⟩
      · apply Or.inr
        rw [same]
        cases readInside isRoot name behind <;> rfl

end

/-- With a smaller window reading stops or gives the same result. -/
theorem ofText_of_le {fewer more : Nat} (le : fewer ≤ more) (text : Text) :
    IsMalformed (Document.ofText fewer text) ∨
      Document.ofText fewer text = Document.ofText more text := by
  have windows : (TokenStream.ofText fewer text).lookahead ≤ max more 1 :=
    show max fewer 1 ≤ max more 1 by omega
  have wide : (TokenStream.ofText fewer text).withWindow (max more 1)
      = TokenStream.ofText more text := rfl
  have start := first_withWindow windows
  rw [wide] at start
  rw [ofText_eq, ofText_eq]
  cases first : (TokenStream.ofText fewer text).first with
  | mk outcome stream =>
    rw [first] at start
    rcases start with ⟨problem, position, failed⟩ | same
    · apply Or.inl
      rw [show outcome = .error (.malformed problem position) from failed]
      exact ⟨problem, position, rfl⟩
    · rw [same]
      cases outcome with
      | error error => exact Or.inr rfl
      | ok opened =>
        obtain ⟨_, place, _, _, _, _, behind⟩ := first_eq_ok first
        have window : stream.lookahead ≤ max more 1 := by
          rw [behind]
          exact windows
        dsimp only
        rcases readInside_withWindow window with ⟨problem, position, failed⟩ | inside
        · apply Or.inl
          rw [failed]
          exact ⟨problem, position, rfl⟩
        · apply Or.inr
          rw [inside]
          cases readInside true opened.2.name stream <;> rfl

/-- The size of the window never changes what is read. With a smaller one reading stops at markup
that it takes for broken, or gives the same result; and what is read with a larger one is read with
it exactly if the start tags up to the end of the root fit into it. -/
theorem window_only_rejects {fewer more : Nat} (le : fewer ≤ more) (bytes : List UInt8) :
    (Document.ofBytes fewer bytes = Document.ofBytes more bytes ∨
        ∃ problem position, Document.ofBytes fewer bytes = .error (.malformed problem position)) ∧
      ∀ document, Document.ofBytes more bytes = .ok document →
        (∃ layout : DocumentLayout, layout.Readable ∧ Text.bytes layout.written = bytes) ∧
          ∀ layout : DocumentLayout, layout.Readable → Text.bytes layout.written = bytes →
            layout.document = document ∧
              (Document.ofBytes fewer bytes = .ok document ↔ layout.root.Fits (max fewer 1)) := by
  cases decoded : Utf8.decode bytes with
  | error fault =>
    have stops : ∀ lookahead, Document.ofBytes lookahead bytes = .error (.encoding fault) :=
      fun lookahead => by rw [Document.ofBytes, decoded]
    refine ⟨Or.inl (by rw [stops, stops]), fun document success => ?_⟩
    rw [stops] at success
    cases success
  | ok text =>
    have reads : ∀ lookahead, Document.ofBytes lookahead bytes = Document.ofText lookahead text :=
      fun lookahead => by rw [Document.ofBytes, decoded]
    rw [reads, reads]
    refine ⟨(ofText_of_le le text).symm, fun document success => ?_⟩
    rw [← reads] at success ⊢
    obtain ⟨laid, only⟩ := DocumentLayout.readable_of_ofBytes success
    refine ⟨laid, fun layout readable same => ?_⟩
    obtain ⟨-, read⟩ := only layout readable same
    rw [← same, ofBytes_bytes, readable.ofText_eq_ok_iff fewer document]
    exact ⟨read.symm, fun both => both.1, fun fits => ⟨fits, read⟩⟩

/-- A tag of eleven bytes is read in a window of eleven bytes and rejected in one of ten, which ends
behind its slash. -/
theorem tag_outgrows_smaller_window :
    let single : StartTag := ⟨['b'], [⟨['é'], ['1']⟩], true⟩
    let layout : DocumentLayout := ⟨['é'], ⟨['a'], [], false⟩, ['<', 'a', '>'],
      .text [' '] (.element single single.written .nil [] .nil), [], []⟩
    10 ≤ 11 ∧ Document.ofBytes 11 (Text.bytes layout.written) = .ok layout.document ∧
      ∃ problem position, Document.ofBytes 10 (Text.bytes layout.written)
        = .error (.malformed problem position) := by
  intro single layout
  have readable : layout.Readable :=
    .unclosed (by decide) (StartTag.startTagText (by decide)) rfl
      (.text (by decide) (by decide) rfl (.single (StartTag.startTagText (by decide)) rfl .nil))
      rfl rfl
  have success : Document.ofBytes 11 (Text.bytes layout.written) = .ok layout.document := by
    rw [ofBytes_bytes]
    exact readable.ofText_eq_ok (by decide)
  obtain ⟨outcome, reads⟩ :=
    window_only_rejects (show 10 ≤ 11 by decide) (Text.bytes layout.written)
  obtain ⟨-, exactly⟩ := (reads layout.document success).2 layout readable rfl
  have different : Document.ofBytes 10 (Text.bytes layout.written) ≠ .ok layout.document :=
    fun same => absurd (exactly.1 same) (by decide)
  exact ⟨by decide, success, outcome.resolve_left fun same => different (same.trans success)⟩

end MailMerge.Markup
