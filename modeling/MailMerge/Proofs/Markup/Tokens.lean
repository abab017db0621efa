import MailMerge.Markup.TokenStream
import MailMerge.Proofs.Markup.TagText

set_option autoImplicit false

namespace MailMerge.Markup

def TokenStream.behind (limit : Nat) (tag : StartTag) (place : Reader) : TokenStream :=
  ⟨place, limit, .content, if tag.selfClosing then some tag.name else none⟩

/-- An angle bracket comes next, or nothing does. -/
def AtMarkup (text : Text) : Prop := text = [] ∨ ∃ behind, text = '<' :: behind

/-- A text that holds something other than space. -/
def Filled (text : Text) : Prop := ∃ c, c ∈ text ∧ isSpace c = false

theorem AtMarkup.stops_isSpace {text : Text} (markup : AtMarkup text) : Stops isSpace text := by
  rcases markup with rfl | ⟨behind, rfl⟩
  · intro c first
    cases first
  · exact stops_cons (by decide)

theorem AtMarkup.stops_data {text : Text} (markup : AtMarkup text) :
    Stops (fun c => c ≠ '<') text := by
  rcases markup with rfl | ⟨behind, rfl⟩
  · intro c first
    cases first
  · exact stops_cons (by decide)

theorem forall_ne_bracket {data : Text} (plain : '<' ∉ data) :
    ∀ c, c ∈ data → decide (c ≠ '<') = true := fun _ member =>
  decide_eq_true fun same => plain (same ▸ member)

theorem atMarkup_dropWhile (text : Text) : AtMarkup (text.dropWhile (· ≠ '<')) := by
  induction text with
  | nil => exact Or.inl rfl
  | cons c rest ih =>
    by_cases bracket : c = '<'
    · rw [List.dropWhile_cons_of_neg (by simp [bracket]), bracket]
      exact Or.inr ⟨rest, rfl⟩
    · rwa [List.dropWhile_cons_of_pos (by simp [bracket])]

theorem not_atMarkup_cons {c : Char} {rest : Text} (other : c ≠ '<') : ¬ AtMarkup (c :: rest) := by
  rintro (empty | ⟨behind, same⟩)
  · cases empty
  · exact other (List.cons.inj same).1

/-- In front of markup stands no space. -/
theorem eq_nil_of_atMarkup {space rest : Text} (blank : Blank space)
    (markup : AtMarkup (space ++ rest)) : space = [] := by
  cases space with
  | nil => rfl
  | cons c space =>
    have spaced := blank c List.mem_cons_self
    have other : c ≠ '<' := by
      rintro rfl
      exact absurd spaced (by decide)
    exact absurd markup (not_atMarkup_cons other)

/-- A token does not depend on where the stream stood before, but for the space in front. -/
theorem tokenAt_congr (place : Reader) {stream other : TokenStream}
    (lookahead : stream.lookahead = other.lookahead) (owed : stream.owed = other.owed) :
    stream.tokenAt place = other.tokenAt place := by
  obtain ⟨reader, limit, phase, owes⟩ := stream
  obtain ⟨reader', limit', phase', owes'⟩ := other
  obtain rfl : limit = limit' := lookahead
  obtain rfl : owes = owes' := owed
  rfl

section

variable (limit : Nat) {phase : Phase}

/-- In front of markup no space is left to skip. -/
theorem next_of_atMarkup (active : phase ≠ .finished) {text : Text} (markup : AtMarkup text)
    (offset : Nat) :
    (⟨⟨offset, text⟩, limit, phase, none⟩ : TokenStream).next
      = TokenStream.tokenAt ⟨offset, text⟩ ⟨⟨offset, text⟩, limit, phase, none⟩ := by
  cases phase with
  | content => rfl
  | afterEndTag => rw [TokenStream.next, skipSpace_eq_self markup.stops_isSpace]
  | finished => exact absurd rfl active

theorem StartTagText.beginsStartTag {tag : StartTag} {text : Text} (start : StartTagText tag text)
    (rest : Text) : TokenStream.beginsStartTag (text ++ rest) = true := by
  cases start with
  | intro isName =>
    obtain ⟨c, others, named, begins, _⟩ := isName
    simpa [named, TokenStream.beginsStartTag] using begins

theorem StartTagText.atMarkup {tag : StartTag} {text : Text} (start : StartTagText tag text)
    (rest : Text) : AtMarkup (text ++ rest) := by
  cases start with
  | intro => exact Or.inr ⟨_, rfl⟩

theorem EndTagText.atMarkup {name text : Text} (closing : EndTagText name text) (rest : Text) :
    AtMarkup (text ++ rest) := by
  cases closing with
  | intro => exact Or.inr ⟨_, rfl⟩

theorem StartTagText.openTag {tag : StartTag} {text : Text} (start : StartTagText tag text)
    (fits : Text.byteLength text ≤ limit) (phase : Phase) (offset : Nat) (rest : Text)
    (place : Reader) :
    ∃ behind, TokenStream.openTag ⟨offset, text ++ rest⟩ ⟨place, limit, phase, none⟩
      = (.ok tag, TokenStream.behind limit tag ⟨behind, rest⟩) := by
  obtain ⟨behind, read⟩ := start.gives fits offset rest
  refine ⟨behind, ?_⟩
  rw [TokenStream.openTag, read]
  rfl

theorem StartTagText.next {tag : StartTag} {text : Text} (start : StartTagText tag text)
    (fits : Text.byteLength text ≤ limit) (active : phase ≠ .finished) (offset : Nat)
    (rest : Text) :
    ∃ behind, (⟨⟨offset, text ++ rest⟩, limit, phase, none⟩ : TokenStream).next
      = (.ok (some (.opening tag)), TokenStream.behind limit tag ⟨behind, rest⟩) := by
  obtain ⟨behind, opened⟩ := start.openTag limit fits phase offset rest ⟨offset, text ++ rest⟩
  have begins := start.beginsStartTag rest
  have markup := start.atMarkup rest
  obtain ⟨name, cut⟩ : ∃ name, text ++ rest = '<' :: name := by
    cases start with
    | intro => exact ⟨_, rfl⟩
  have here : Reader.skipSpace ⟨offset, text ++ rest⟩ = ⟨offset, text ++ rest⟩ :=
    skipSpace_eq_self markup.stops_isSpace
  refine ⟨behind, ?_⟩
  rw [next_of_atMarkup limit active markup, TokenStream.tokenAt]
  rw [cut] at opened begins here ⊢
  simp only [here, begins, if_true, opened]

theorem EndTagText.next {name text : Text} (closing : EndTagText name text)
    (active : phase ≠ .finished) (offset : Nat) (rest : Text) :
    ∃ behind, (⟨⟨offset, text ++ rest⟩, limit, phase, none⟩ : TokenStream).next
      = (.ok (some (.closing name)), ⟨⟨behind, rest⟩, limit, .afterEndTag, none⟩) := by
  obtain ⟨behind, read⟩ := closing.gives offset rest
  obtain ⟨inside, cut⟩ : ∃ inside, text ++ rest = '<' :: '/' :: inside := by
    cases closing with
    | intro => exact ⟨_, rfl⟩
  have markup : AtMarkup (text ++ rest) := Or.inr ⟨_, cut⟩
  have here : Reader.skipSpace ⟨offset, text ++ rest⟩ = ⟨offset, text ++ rest⟩ :=
    skipSpace_eq_self markup.stops_isSpace
  have noStart : TokenStream.beginsStartTag (text ++ rest) = false := by
    rw [cut]
    rfl
  have ends : TokenStream.beginsEndTag (text ++ rest) = true := by
    rw [cut]
    rfl
  refine ⟨behind, ?_⟩
  rw [next_of_atMarkup limit active markup, TokenStream.tokenAt]
  rw [cut] at read here noStart ends ⊢
  simp only [here, noStart, ends, TokenStream.closeTag, read]
  rfl

/-- Behind a single tag stands an end tag that takes no text. -/
theorem next_behind_single {tag : StartTag} (single : tag.selfClosing = true) (place : Reader) :
    (TokenStream.behind limit tag place).next
      = (.ok (some (.closing tag.name)), ⟨place, limit, .afterEndTag, none⟩) := by
  rw [TokenStream.behind, if_pos single]
  rfl

end

/-- Where no tag begins, everything up to the next angle bracket is one token. -/
theorem tokenAt_data {place : Reader} {c : Char} {others : Text} (cut : place.rest = c :: others)
    (other : c ≠ '<') (noStart : TokenStream.beginsStartTag place.skipSpace.rest = false)
    (stream : TokenStream) :
    stream.tokenAt place = (.ok (some (.data (place.rest.takeWhile (· ≠ '<')))),
      { stream with reader := place.skipWhile (· ≠ '<'), phase := .content }) := by
  have noEnd : TokenStream.beginsEndTag place.rest = false := by
    simp [cut, TokenStream.beginsEndTag, other]
  rw [TokenStream.tokenAt]
  split
  · rename_i empty
    rw [empty] at cut
    cases cut
  · rename_i first behind whole
    have same : first = c := (List.cons.inj (whole.symm.trans cut)).1
    rw [if_neg (by simp [noStart]), if_neg (by simp [noEnd]), if_neg (same ▸ other)]

theorem tokenAt_unsupported {place : Reader} {behind : Text} (bracket : place.rest = '<' :: behind)
    (noStart : TokenStream.beginsStartTag place.skipSpace.rest = false)
    (noEnd : TokenStream.beginsEndTag place.rest = false) (stream : TokenStream) :
    stream.tokenAt place
      = (.error (.malformed .unsupportedConstruct place.offset), stream.stopAt place) := by
  rw [TokenStream.tokenAt]
  split
  · rename_i empty
    rw [empty] at bracket
    cases bracket
  · rename_i first others whole
    have same : first = '<' := (List.cons.inj (whole.symm.trans bracket)).1
    rw [if_neg (by simp [noStart]), if_neg (by simp [noEnd]), if_pos same]

theorem tokenAt_startTag {place : Reader}
    (begins : TokenStream.beginsStartTag place.skipSpace.rest = true) (stream : TokenStream) :
    stream.tokenAt place =
      match stream.openTag place.skipSpace with
      | (.ok tag, after) => (.ok (some (.opening tag)), after)
      | (.error error, after) => (.error error, after) := by
  rw [TokenStream.tokenAt]
  split
  · rename_i empty
    have nothing : place.skipSpace.rest = [] := by
      rw [Reader.skipSpace, Reader.skipWhile, empty]
      rfl
    rw [nothing] at begins
    cases begins
  · exact if_pos begins

section

variable {stream : TokenStream} {place : Reader}

theorem tokenAt_eq_openTag (begins : TokenStream.beginsStartTag place.skipSpace.rest = true) :
    stream.tokenAt place
      = (stream.openTag place.skipSpace).map (Except.map fun tag => some (.opening tag)) id := by
  rw [tokenAt_startTag begins]
  obtain ⟨outcome, after⟩ := stream.openTag place.skipSpace
  cases outcome <;> rfl

theorem tokenAt_eq_closeTag (noStart : TokenStream.beginsStartTag place.skipSpace.rest = false)
    (ends : TokenStream.beginsEndTag place.rest = true) :
    stream.tokenAt place
      = (stream.closeTag place).map (Except.map fun name => some (.closing name)) id := by
  rw [TokenStream.tokenAt]
  split
  · rename_i empty
    rw [empty] at ends
    cases ends
  · rw [if_neg (by simp [noStart]), if_pos ends]
    obtain ⟨outcome, after⟩ := stream.closeTag place
    cases outcome <;> rfl

theorem first_eq_openTag {prolog found : Text}
    (cut : TokenStream.cutAtStartTag? stream.reader.rest = some (prolog, found)) :
    stream.first = (stream.openTag ⟨stream.reader.offset + Text.byteLength prolog, found⟩).map
      (Except.map fun tag => (prolog, tag)) id := by
  rw [TokenStream.first]
  simp only [cut]
  obtain ⟨outcome, after⟩ :=
    stream.openTag ⟨stream.reader.offset + Text.byteLength prolog, found⟩
  cases outcome <;> rfl

end

/-- Space in front of a start tag is passed over. -/
theorem tokenAt_skipSpace {place : Reader}
    (begins : TokenStream.beginsStartTag place.skipSpace.rest = true) (stream : TokenStream) :
    stream.tokenAt place = stream.tokenAt place.skipSpace := by
  have again : place.skipSpace.skipSpace = place.skipSpace :=
    skipSpace_eq_self (stops_dropWhile isSpace place.rest)
  rw [tokenAt_startTag begins, tokenAt_startTag (again.symm ▸ begins), again]

theorem skipSpace_lead (lead : Text) {text : Text} (markup : AtMarkup text) (offset : Nat) :
    ∃ place, Reader.skipSpace ⟨offset, lead ++ text⟩ = ⟨place, lead.dropWhile isSpace ++ text⟩ := by
  have skipped : (lead ++ text).dropWhile isSpace = lead.dropWhile isSpace ++ text := by
    have stays := dropWhile_append blank_nil markup.stops_isSpace
    rw [List.nil_append] at stays
    rw [List.dropWhile_append, stays]
    split
    · rename_i empty
      rw [List.isEmpty_iff.1 empty, List.nil_append]
    · rfl
  exact ⟨_, congrArg (Reader.mk _) skipped⟩

/-- Data in front of markup is a token of its own. Only space in front of a start tag is not. -/
theorem tokenAt_lead {lead text : Text} (plain : '<' ∉ lead) (markup : AtMarkup text)
    (offset : Nat) (stream : TokenStream) :
    ∃ place,
      (Blank lead ∧ (lead = [] ∨ TokenStream.beginsStartTag text = true) ∧
          stream.tokenAt ⟨offset, lead ++ text⟩ = stream.tokenAt ⟨place, text⟩) ∨
        (lead ≠ [] ∧ (Blank lead → TokenStream.beginsStartTag text = false) ∧
          stream.tokenAt ⟨offset, lead ++ text⟩
            = (.ok (some (.data lead)),
              ⟨⟨place, text⟩, stream.lookahead, .content, stream.owed⟩)) := by
  by_cases filled : lead = []
  · refine ⟨offset, Or.inl ⟨filled ▸ blank_nil, Or.inl filled, ?_⟩⟩
    rw [filled, List.nil_append]
  · obtain ⟨c, others, cut⟩ := List.exists_cons_of_ne_nil filled
    have other : c ≠ '<' := fun same => plain (by simp [cut, same])
    have all := forall_ne_bracket plain
    obtain ⟨place, skipped⟩ := skipSpace_lead lead markup offset
    by_cases begins :
        TokenStream.beginsStartTag (Reader.skipSpace ⟨offset, lead ++ text⟩).rest = true
    · have nothing : lead.dropWhile isSpace = [] := by
        cases left : lead.dropWhile isSpace with
        | nil => rfl
        | cons d behind =>
          have member : d ∈ lead := (List.dropWhile_sublist isSpace).subset (by simp [left])
          have bracket : d ≠ '<' := fun same => plain (same ▸ member)
          rw [skipped, left] at begins
          simp [TokenStream.beginsStartTag, bracket] at begins
      rw [nothing, List.nil_append] at skipped
      refine ⟨place, Or.inl ⟨List.dropWhile_eq_nil_iff.1 nothing, Or.inr ?_, ?_⟩⟩
      · rwa [skipped] at begins
      · rw [tokenAt_skipSpace begins, skipped]
    · have whole : lead ++ text = c :: (others ++ text) := by rw [cut, List.cons_append]
      refine ⟨offset + Text.byteLength lead, Or.inr ⟨filled, fun blank => ?_, ?_⟩⟩
      · rw [skipped, List.dropWhile_eq_nil_iff.2 blank, List.nil_append] at begins
        exact Bool.eq_false_iff.2 begins
      · rw [tokenAt_data whole other (Bool.eq_false_iff.2 begins),
          takeWhile_append all markup.stops_data, skipWhile_append all markup.stops_data]

/-- What is kept of a piece of data: behind an end tag it loses the space in front, and nothing but
space in front of a start tag is dropped. -/
def keptPiece (behindTag beforeStart : Bool) (piece : Text) : Text :=
  let left := if behindTag then piece.dropWhile isSpace else piece
  if beforeStart && left.all isSpace then [] else left

theorem keptPiece_of_blank {piece : Text} (blank : Blank piece) {beforeStart : Bool}
    (nothing : piece = [] ∨ beforeStart = true) : keptPiece false beforeStart piece = [] := by
  have all : piece.all isSpace = true := List.all_eq_true.2 blank
  rcases nothing with rfl | begins
  · cases beforeStart <;> rfl
  · simp [keptPiece, begins, all]

theorem keptPiece_of_filled {piece : Text} {beforeStart : Bool}
    (apart : Blank piece → beforeStart = false) : keptPiece false beforeStart piece = piece := by
  by_cases blank : Blank piece
  · simp [keptPiece, apart blank]
  · have filled : piece.all isSpace = false := by
      rw [Bool.eq_false_iff]
      exact fun all => blank (List.all_eq_true.1 all)
    simp [keptPiece, filled]

theorem keptPiece_behind (beforeStart : Bool) (piece : Text) :
    keptPiece true beforeStart piece = keptPiece false beforeStart (piece.dropWhile isSpace) := rfl

/-- Data in front of markup is a token with what is kept of it, if anything is. -/
theorem next_lead (limit : Nat) {phase : Phase} (active : phase ≠ .finished) {lead text : Text}
    (plain : '<' ∉ lead) (markup : AtMarkup text) (offset : Nat) :
    ∃ place,
      (keptPiece (phase = .afterEndTag) (TokenStream.beginsStartTag text) lead = [] ∧
          (⟨⟨offset, lead ++ text⟩, limit, phase, none⟩ : TokenStream).next
            = (⟨⟨place, text⟩, limit, .content, none⟩ : TokenStream).next) ∨
        (⟨⟨offset, lead ++ text⟩, limit, phase, none⟩ : TokenStream).next
          = (.ok (some (.data
              (keptPiece (phase = .afterEndTag) (TokenStream.beginsStartTag text) lead))),
            ⟨⟨place, text⟩, limit, .content, none⟩) := by
  obtain ⟨start, left, stillPlain, same, next⟩ : ∃ start left, '<' ∉ left ∧
      keptPiece (phase = .afterEndTag) (TokenStream.beginsStartTag text) lead
        = keptPiece false (TokenStream.beginsStartTag text) left ∧
      (⟨⟨offset, lead ++ text⟩, limit, phase, none⟩ : TokenStream).next
        = TokenStream.tokenAt ⟨start, left ++ text⟩
          ⟨⟨offset, lead ++ text⟩, limit, phase, none⟩ := by
    cases phase with
    | content => exact ⟨offset, lead, plain, rfl, rfl⟩
    | afterEndTag =>
      obtain ⟨place, skipped⟩ := skipSpace_lead lead markup offset
      refine ⟨place, lead.dropWhile isSpace, fun bracket => ?_, rfl,
        by rw [TokenStream.next, skipped]⟩
      exact plain ((List.dropWhile_sublist isSpace).subset bracket)
    | finished => exact absurd rfl active
  rw [same]
  obtain ⟨place, ⟨blank, nothing, passed⟩ | ⟨_, apart, token⟩⟩ :=
    tokenAt_lead stillPlain markup start ⟨⟨offset, lead ++ text⟩, limit, phase, none⟩
  · exact ⟨place, Or.inl ⟨keptPiece_of_blank blank nothing,
      next.trans (passed.trans (tokenAt_congr _ rfl rfl))⟩⟩
  · refine ⟨place, Or.inr ?_⟩
    rw [keptPiece_of_filled apart]
    exact next.trans token

/-- What a token says about the stream in front of it, and what it leaves. -/
inductive TokenRead (stream : TokenStream) : Token → TokenStream → Prop
  | owed {name : Text} (owes : stream.owed = some name) :
      TokenRead stream (.closing name) ⟨stream.reader, stream.lookahead, .afterEndTag, none⟩
  | closing {name space text : Text} {place : Reader} (owes : stream.owed = none)
      (blank : Blank space) (closes : EndTagText name text)
      (consumed : stream.rest = space ++ (text ++ place.rest)) :
      TokenRead stream (.closing name) ⟨place, stream.lookahead, .afterEndTag, none⟩
  | opening {tag : StartTag} {space text : Text} {place : Reader} (owes : stream.owed = none)
      (blank : Blank space) (opens : StartTagText tag text)
      (fits : Text.byteLength text ≤ stream.lookahead)
      (consumed : stream.rest = space ++ (text ++ place.rest)) :
      TokenRead stream (.opening tag) (.behind stream.lookahead tag place)
  | data {space piece : Text} {place : Reader} (owes : stream.owed = none) (blank : Blank space)
      (consumed : stream.rest = space ++ (piece ++ place.rest))
      (notMarkup : ¬ AtMarkup stream.rest) (plain : '<' ∉ piece)
      (behindTag : stream.phase = .afterEndTag → Filled piece)
      (stops : AtMarkup place.rest)
      (apart : Filled piece ∨ TokenStream.beginsStartTag place.rest = false) :
      TokenRead stream (.data piece) ⟨place, stream.lookahead, .content, none⟩

theorem exists_bracket_of_beginsStartTag {text : Text}
    (begins : TokenStream.beginsStartTag text = true) :
    ∃ c behind, text = '<' :: c :: behind ∧ isNameStart c = true := by
  unfold TokenStream.beginsStartTag at begins
  split at begins
  · exact ⟨_, _, rfl, begins⟩
  · cases begins

theorem exists_bracket_of_beginsEndTag {text : Text}
    (begins : TokenStream.beginsEndTag text = true) :
    ∃ behind, text = '<' :: '/' :: behind := by
  unfold TokenStream.beginsEndTag at begins
  split at begins
  · exact ⟨_, rfl⟩
  · cases begins

theorem openTag_eq_ok {place : Reader} {stream after : TokenStream} {tag : StartTag}
    (owes : stream.owed = none) (begins : TokenStream.beginsStartTag place.rest = true)
    (success : stream.openTag place = (.ok tag, after)) :
    ∃ text behind, StartTagText tag text ∧ Text.byteLength text ≤ stream.lookahead ∧
      place.rest = text ++ behind.rest ∧ after = .behind stream.lookahead tag behind := by
  unfold TokenStream.openTag at success
  split at success
  · cases success
  · rename_i opened behind read
    cases success
    obtain ⟨c, inside, bracket, _⟩ := exists_bracket_of_beginsStartTag begins
    obtain ⟨text, opens, fits, consumed⟩ := startTagText_of_readStartTag bracket read
    rw [owes]
    exact ⟨text, behind, opens, fits, consumed, rfl⟩

/-- Data goes up to the next bracket, and no start tag follows it unless it is more than space. -/
theorem tokenRead_data {stream : TokenStream} {place : Reader} {space : Text} {c : Char}
    {rest : Text} (owes : stream.owed = none) (blank : Blank space)
    (spaced : stream.rest = space ++ place.rest) (whole : place.rest = c :: rest) (other : c ≠ '<')
    (noStart : TokenStream.beginsStartTag place.skipSpace.rest = false)
    (behindTag : stream.phase = .afterEndTag → Stops isSpace place.rest) :
    TokenRead stream (.data (place.rest.takeWhile (· ≠ '<')))
      ⟨place.skipWhile (· ≠ '<'), stream.lookahead, .content, none⟩ := by
  obtain ⟨piece, pieceEq⟩ : ∃ piece, piece = place.rest.takeWhile (· ≠ '<') := ⟨_, rfl⟩
  obtain ⟨behind, behindEq⟩ : ∃ behind, behind = place.skipWhile (· ≠ '<') := ⟨_, rfl⟩
  have left : behind.rest = place.rest.dropWhile (· ≠ '<') := by rw [behindEq, Reader.skipWhile]
  have cut : place.rest = piece ++ behind.rest := by
    rw [pieceEq, left, List.takeWhile_append_dropWhile]
  have stops : AtMarkup behind.rest := left ▸ atMarkup_dropWhile place.rest
  have notMarkup : ¬ AtMarkup stream.rest := by
    intro markup
    rw [spaced] at markup
    rw [eq_nil_of_atMarkup blank markup, List.nil_append, whole] at markup
    exact not_atMarkup_cons other markup
  have first : c ∈ piece := by
    rw [pieceEq, whole, List.takeWhile_cons_of_pos (by simpa using other)]
    exact List.mem_cons_self
  have plain : '<' ∉ piece := by
    intro bracket
    rw [pieceEq] at bracket
    simpa using List.mem_takeWhile_imp bracket
  have apart : Filled piece ∨ TokenStream.beginsStartTag behind.rest = false := by
    by_cases filled : Filled piece
    · exact Or.inl filled
    · -- Only space up to the bracket: it would have been passed over in front of a start tag.
      right
      have spaces : Blank piece := by
        intro d member
        by_contra other
        exact filled ⟨d, member, by simpa using other⟩
      have skipped : place.skipSpace.rest = behind.rest := by
        change place.rest.dropWhile isSpace = behind.rest
        rw [cut, dropWhile_append spaces stops.stops_isSpace]
      rwa [skipped] at noStart
  rw [← pieceEq, ← behindEq]
  exact .data owes blank (by rw [spaced, cut]) notMarkup plain
    (fun phase => ⟨c, first, behindTag phase c (by rw [whole]; rfl)⟩) stops apart

/-- The token at a place in front of which only space was passed over. -/
theorem tokenRead_of_tokenAt {place : Reader} {space : Text} {stream after : TokenStream}
    {token : Token} (owes : stream.owed = none) (blank : Blank space)
    (spaced : stream.rest = space ++ place.rest)
    (behindTag : stream.phase = .afterEndTag → Stops isSpace place.rest)
    (success : stream.tokenAt place = (.ok (some token), after)) :
    TokenRead stream token after := by
  unfold TokenStream.tokenAt at success
  split at success
  · cases success
  · rename_i c rest whole
    split at success
    · rename_i begins
      split at success
      · rename_i opened
        cases success
        obtain ⟨more, moreBlank, skipped, _⟩ := exists_blank_skipSpace place
        obtain ⟨text, behind, opens, fits, consumed, rfl⟩ := openTag_eq_ok owes begins opened
        refine .opening owes (blank.append moreBlank) opens fits ?_
        rw [spaced, skipped, consumed, List.append_assoc]
      · cases success
    · rename_i noStart
      split at success
      · rename_i ends
        split at success
        · rename_i closed
          cases success
          unfold TokenStream.closeTag at closed
          split at closed
          · cases closed
          · rename_i read
            cases closed
            obtain ⟨inside, bracket⟩ := exists_bracket_of_beginsEndTag ends
            obtain ⟨text, closes, consumed⟩ := endTagText_of_readEndTag bracket read
            rw [owes]
            exact .closing owes blank closes (by rw [spaced, consumed])
        · cases success
      · split at success
        · cases success
        · rename_i other
          cases success
          rw [owes]
          exact tokenRead_data owes blank spaced whole other (Bool.eq_false_iff.2 noStart) behindTag

theorem tokenRead_of_next {stream after : TokenStream} {token : Token}
    (success : stream.next = (.ok (some token), after)) : TokenRead stream token after := by
  unfold TokenStream.next at success
  split at success
  · cases success
  · rename_i owes _
    cases success
    exact .owed owes
  · rename_i phase owes
    obtain ⟨space, blank, spaced, stops⟩ := exists_blank_skipSpace stream.reader
    exact tokenRead_of_tokenAt owes blank spaced (fun _ => stops) success
  · rename_i phase owes
    refine tokenRead_of_tokenAt owes blank_nil rfl ?_ success
    intro behind
    rw [phase] at behind
    cases behind

theorem rest_of_tokenAt_none {place : Reader} {stream final : TokenStream}
    (ended : stream.tokenAt place = (.ok none, final)) : place.rest = [] ∧ final.rest = [] := by
  unfold TokenStream.tokenAt at ended
  split at ended
  · rename_i empty
    cases ended
    exact ⟨empty, empty⟩
  · split at ended
    · split at ended <;> cases ended
    · split at ended
      · split at ended <;> cases ended
      · split at ended <;> cases ended

/-- Only at the end of the text there is no token. -/
theorem rest_of_next_none {stream final : TokenStream} (active : stream.phase ≠ .finished)
    (ended : stream.next = (.ok none, final)) : Blank stream.rest ∧ final.rest = [] := by
  unfold TokenStream.next at ended
  split at ended
  · contradiction
  · cases ended
  · obtain ⟨space, blank, spaced, _⟩ := exists_blank_skipSpace stream.reader
    obtain ⟨empty, last⟩ := rest_of_tokenAt_none ended
    rw [empty, List.append_nil] at spaced
    rw [TokenStream.rest, spaced]
    exact ⟨blank, last⟩
  · obtain ⟨empty, last⟩ := rest_of_tokenAt_none ended
    rw [TokenStream.rest, empty]
    exact ⟨blank_nil, last⟩

end MailMerge.Markup
