import MailMerge.Proofs.Markup.ByteScanner

set_option autoImplicit false

namespace MailMerge.Markup

namespace Scanner

/-- Looks for the bracket of the first start tag. Behind the last bracket that begins none, the
scanner stops. -/
def seekStartTag (scanner : Scanner) : Option (Bool × Scanner) :=
  match _found : scanner.seek? '<' with
  | none => none
  | some none => some (false, scanner)
  | some (some place) =>
    let here := scanner.moveTo place
    if here.seesName 1 then some (true, here) else (here.advance 1).seekStartTag
termination_by (Text.bytes scanner.text).length - scanner.position
decreasing_by
  obtain ⟨onward, inside⟩ := le_seek? _found
  show (Text.bytes scanner.text).length - (place + 1) < _
  omega

theorem seekStartTag_eq (scanner : Scanner) :
    scanner.seekStartTag = match scanner.seek? '<' with
      | none => none
      | some none => some (false, scanner)
      | some (some place) =>
        if (scanner.moveTo place).seesName 1 then some (true, scanner.moveTo place)
        else ((scanner.moveTo place).advance 1).seekStartTag := by
  rw [seekStartTag]
  split
  · rename_i found
    rw [found]
  · rename_i found
    rw [found]
  · rename_i found
    rw [found]

end Scanner

/-- The tokens that are still to come in a text, read byte by byte. -/
structure ByteStream where
  scanner : Scanner
  lookahead : Nat
  phase : Phase
  owed : Option Text

namespace ByteStream

def ofText (lookahead : Nat) (text : Text) : ByteStream :=
  ⟨.ofText text, max lookahead 1, .content, none⟩

def fail {α : Type} (problem : MarkupProblem) (position : Nat) (stream : ByteStream) :
    Except Error α × ByteStream :=
  (.error (.malformed problem position), { stream with phase := .finished })

def scanStartTag (stream : ByteStream) : Option (Except Error StartTag × ByteStream) := do
  let window ← stream.scanner.bounded? stream.lookahead
  match ← (window.advance 1).scanName with
  | (none, here) => return stream.fail .elementNameExpected here.position
  | (some name, here) =>
    match ← here.scanTagEnd with
    | (.error problem, last) => return stream.fail problem last.position
    | (.ok (attributes, selfClosing), last) =>
      let after : ByteStream :=
        { stream with scanner := stream.scanner.moveTo last.position, phase := .content }
      return (.ok ⟨name, attributes, selfClosing⟩,
        if selfClosing then { after with owed := some name } else after)

def scanEndTag (stream : ByteStream) : Option (Except Error Text × ByteStream) := do
  match ← (stream.scanner.advance 2).scanName with
  | (none, here) =>
    return { stream with scanner := here }.fail .endTagNameExpected here.position
  | (some name, here) =>
    let last := here.skipSpace
    if last.sees 0 '>' then
      return (.ok name, { stream with scanner := last.advance 1, phase := .afterEndTag })
    else return { stream with scanner := last }.fail .endTagUnclosed last.position

/-- Reads character data up to the next angle bracket, or up to the end. -/
def scanData (stream : ByteStream) : Option (Except Error (Option Token) × ByteStream) := do
  let here := stream.scanner
  let found ← here.seek? '<'
  let rest ← here.remaining?
  let last := found.getD (here.position + Text.byteLength rest)
  let piece ← here.slice? here.position last
  return (.ok (some (.data piece)), { stream with scanner := here.moveTo last })

def scanToken (stream : ByteStream) : Option (Except Error (Option Token) × ByteStream) := do
  let here := stream.scanner
  let tight := here.skipSpace
  if here.isAtEnd then return (.ok none, { stream with phase := .finished })
  else if tight.sees 0 '<' && tight.seesName 1 then
    let (tag, after) ← { stream with scanner := tight }.scanStartTag
    return (tag.map fun tag => some (.opening tag), after)
  else if ← here.seesEndTag? then
    let (name, after) ← stream.scanEndTag
    return (name.map fun name => some (.closing name), after)
  else if here.sees 0 '<' then return stream.fail .unsupportedConstruct here.position
  else stream.scanData

/-- The next token, or none at the end, and the stream behind it. -/
def next (stream : ByteStream) : Option (Except Error (Option Token) × ByteStream) :=
  if stream.phase = .finished then some (.ok none, stream)
  else
    match stream.owed with
    | some name =>
      some (.ok (some (.closing name)), { stream with owed := none, phase := .afterEndTag })
    | none =>
      if stream.phase = .afterEndTag then
        { stream with scanner := stream.scanner.skipSpace, phase := .content }.scanToken
      else stream.scanToken

/-- Passes over everything in front of the first start tag and reads that tag. -/
def first (stream : ByteStream) : Option (Except Error (Text × StartTag) × ByteStream) := do
  match ← stream.scanner.seekStartTag with
  | (false, last) =>
    return (.error .noRootElement, { stream with scanner := last, phase := .finished })
  | (true, found) =>
    let prolog ← found.slice? stream.scanner.position found.position
    let (tag, after) ← { stream with scanner := found }.scanStartTag
    return (tag.map fun tag => (prolog, tag), after)

end ByteStream

theorem not_mem_of_cutAt? {c : Char} {text : Text} (nothing : Text.cutAt? c text = none) :
    c ∉ text := by
  induction text with
  | nil => exact List.not_mem_nil
  | cons d rest ih =>
    rw [Text.cutAt?] at nothing
    by_cases same : d = c
    · rw [if_pos same] at nothing
      cases nothing
    · rw [if_neg same, Option.map_eq_none_iff] at nothing
      exact List.not_mem_cons_of_ne_of_not_mem (Ne.symm same) (ih nothing)

theorem beginsStartTag_cons (after : Text) :
    TokenStream.beginsStartTag ('<' :: after) = after.head?.any isNameStart := by
  cases after <;> rfl

/-- What is left behind the last bracket, or everything. -/
theorem exists_in_front_of_last (text : Text) :
    ∃ front, text = front ++ (TokenStream.afterLastBracket? text).getD text := by
  induction text with
  | nil => exact ⟨[], rfl⟩
  | cons c text ih =>
    rw [TokenStream.afterLastBracket?]
    cases deeper : TokenStream.afterLastBracket? text with
    | some found =>
      obtain ⟨front, whole⟩ := ih
      rw [deeper] at whole
      exact ⟨c :: front, congrArg (c :: ·) whole⟩
    | none =>
      by_cases bracket : c = '<'
      · rw [if_pos bracket]
        exact ⟨[c], rfl⟩
      · rw [if_neg bracket]
        exact ⟨[], rfl⟩

section

variable {before : Text} (plain : '<' ∉ before) (rest : Text)
include plain

theorem cutAtStartTag?_plain : TokenStream.cutAtStartTag? (before ++ rest)
    = (TokenStream.cutAtStartTag? rest).map fun (front, found) => (before ++ front, found) := by
  induction before with
  | nil =>
    rw [List.nil_append]
    cases TokenStream.cutAtStartTag? rest <;> rfl
  | cons c before ih =>
    have other : c ≠ '<' := fun same => plain (same ▸ List.mem_cons_self)
    have noStart : TokenStream.beginsStartTag (c :: (before ++ rest)) = false := by
      simp [TokenStream.beginsStartTag, other]
    rw [List.cons_append, TokenStream.cutAtStartTag?, if_neg (by simp [noStart]),
      ih fun member => plain (List.mem_cons_of_mem c member)]
    cases TokenStream.cutAtStartTag? rest <;> rfl

theorem afterLastBracket?_plain :
    TokenStream.afterLastBracket? (before ++ rest) = TokenStream.afterLastBracket? rest := by
  induction before with
  | nil => rfl
  | cons c before ih =>
    have other : c ≠ '<' := fun same => plain (same ▸ List.mem_cons_self)
    rw [List.cons_append, TokenStream.afterLastBracket?, if_neg other,
      ih fun member => plain (List.mem_cons_of_mem c member)]
    cases TokenStream.afterLastBracket? rest <;> rfl

end

/-- The place where looking for the first start tag ends, and whether the tag begins there. -/
def startTagPlace (place : Reader) : Bool × Reader :=
  match TokenStream.cutAtStartTag? place.rest with
  | some (prolog, found) => (true, ⟨place.offset + Text.byteLength prolog, found⟩)
  | none =>
    let rest := (TokenStream.afterLastBracket? place.rest).getD place.rest
    (false, ⟨place.offset + (Text.byteLength place.rest - Text.byteLength rest), rest⟩)

theorem reaches_startTagPlace (place : Reader) : place.Reaches (startTagPlace place).2 := by
  rw [startTagPlace]
  cases cut : TokenStream.cutAtStartTag? place.rest with
  | some parts => exact ⟨parts.1, (cutAtStartTag?_eq_some cut).1, rfl⟩
  | none =>
    obtain ⟨front, whole⟩ := exists_in_front_of_last place.rest
    refine ⟨front, whole, ?_⟩
    have length := congrArg Text.byteLength whole
    rw [Text.byteLength_append] at length
    show place.offset + (Text.byteLength place.rest - _) = place.offset + Text.byteLength front
    omega

theorem first_eq_noRootElement {stream : TokenStream}
    (cut : TokenStream.cutAtStartTag? stream.reader.rest = none) :
    stream.first
      = (.error .noRootElement, stream.stopAt (startTagPlace stream.reader).2) := by
  rw [TokenStream.first, startTagPlace]
  simp only [cut]

theorem startTagPlace_plain {place : Reader} (plain : '<' ∉ place.rest) :
    startTagPlace place = (false, place) := by
  have cut := cutAtStartTag?_plain plain []
  have last := afterLastBracket?_plain plain []
  rw [List.append_nil] at cut last
  rw [startTagPlace, cut, last]
  show (false, Reader.mk (place.offset
    + (Text.byteLength place.rest - Text.byteLength place.rest)) place.rest) = _
  rw [Nat.sub_self]
  rfl

theorem startTagPlace_found {before after : Text} (plain : '<' ∉ before)
    (begins : after.head?.any isNameStart = true) (offset : Nat) :
    startTagPlace ⟨offset, before ++ '<' :: after⟩
      = (true, ⟨offset + Text.byteLength before, '<' :: after⟩) := by
  have here : TokenStream.cutAtStartTag? ('<' :: after) = some ([], '<' :: after) := by
    rw [TokenStream.cutAtStartTag?, if_pos ((beginsStartTag_cons after).trans begins)]
  rw [startTagPlace, cutAtStartTag?_plain plain, here]
  dsimp only [Option.map]
  rw [List.append_nil]

/-- Behind a bracket that begins no start tag, looking goes on. -/
theorem startTagPlace_behind {before after : Text} (plain : '<' ∉ before)
    (other : after.head?.any isNameStart = false) (offset : Nat) :
    startTagPlace ⟨offset, before ++ '<' :: after⟩
      = startTagPlace ⟨offset + Text.byteLength before + 1, after⟩ := by
  have noStart : ¬ TokenStream.beginsStartTag ('<' :: after) = true := by
    rw [beginsStartTag_cons, other]
    exact Bool.false_ne_true
  have width : Text.width '<' = 1 := rfl
  rw [startTagPlace, startTagPlace, cutAtStartTag?_plain plain, afterLastBracket?_plain plain,
    TokenStream.cutAtStartTag?, if_neg noStart, TokenStream.afterLastBracket?, if_pos rfl]
  cases TokenStream.cutAtStartTag? after with
  | some parts =>
    dsimp only [Option.map]
    rw [Text.byteLength_append, Text.byteLength, width]
    congr 2
    omega
  | none =>
    have same : (TokenStream.afterLastBracket? after <|> some after).getD (before ++ '<' :: after)
        = (TokenStream.afterLastBracket? after).getD after := by
      cases TokenStream.afterLastBracket? after <;> rfl
    obtain ⟨front, whole⟩ := exists_in_front_of_last after
    have length := congrArg Text.byteLength whole
    rw [Text.byteLength_append] at length
    dsimp only [Option.map]
    rw [same, Text.byteLength_append, Text.byteLength, width]
    congr 2
    omega

theorem seekStartTag_over {text : Text} {place : Reader}
    (within : (Reader.ofText text).Reaches place) :
    (place.over text).seekStartTag
      = some ((startTagPlace place).1, (startTagPlace place).2.over text) := by
  -- The scanner goes from bracket to bracket, and the cut of a text from character to character, so
  -- neither recursion fits: what gets shorter is the text behind the last bracket that was found.
  induction length : place.rest.length using Nat.strongRecOn generalizing place with
  | _ n ih =>
    obtain ⟨offset, rest⟩ := place
    rw [Scanner.seekStartTag_eq, seek?_over within (by decide)]
    cases cut : Text.cutAt? '<' rest with
    | none =>
      rw [startTagPlace_plain (not_mem_of_cutAt? cut)]
      rfl
    | some parts =>
      obtain ⟨before, after⟩ := parts
      obtain ⟨plain, rfl⟩ := cutAt?_eq_some cut
      have bracket : (Reader.ofText text).Reaches
          ⟨offset + Text.byteLength before, '<' :: after⟩ := within.trans ⟨before, rfl, rfl⟩
      have seen := seesName_behind bracket (by decide) rfl
      dsimp only [Option.map]
      cases begins : after.head?.any isNameStart with
      | true =>
        rw [begins] at seen
        rw [startTagPlace_found plain begins]
        exact if_pos seen
      | false =>
        rw [begins] at seen
        rw [startTagPlace_behind plain begins]
        have behind : (Reader.ofText text).Reaches
            ⟨offset + Text.byteLength before + 1, after⟩ := bracket.trans (reaches_skipChar _)
        refine (if_neg ?_).trans (ih after.length ?_ behind rfl)
        · exact fun sees => Bool.false_ne_true (seen.symm.trans sees)
        · rw [← length, List.length_append, List.length_cons]
          omega

/-- The stream over the bytes of a text. -/
def TokenStream.over (text : Text) (stream : TokenStream) : ByteStream :=
  ⟨stream.reader.over text, stream.lookahead, stream.phase, stream.owed⟩

/-- An outcome with the stream behind it over the bytes of a text. -/
def overOutcome {α : Type} (text : Text) (outcome : Except Error α × TokenStream) :
    Except Error α × ByteStream :=
  (outcome.1, outcome.2.over text)

theorem readEndTag_eq (reader : Reader) :
    readEndTag reader = match reader.skipChar.skipChar.readName? with
      | none => .error (.endTagNameExpected, reader.skipChar.skipChar)
      | some (name, afterName) =>
        if afterName.skipSpace.rest.head?.any (· == '>') then
          .ok (name, afterName.skipSpace.skipChar)
        else .error (.endTagUnclosed, afterName.skipSpace) := by
  rw [readEndTag]
  dsimp only
  cases reader.skipChar.skipChar.readName? with
  | none => rfl
  | some read =>
    dsimp only
    split
    · rename_i closes
      rw [if_pos (any_head?_iff.2 ⟨_, closes⟩)]
    · rename_i other
      rw [if_neg fun next => (any_head?_iff.1 next).elim other]

/-- What stands in front of the next such character, or everything. -/
theorem getD_cutAt? (c : Char) (text : Text) :
    ((Text.cutAt? c text).map fun parts => Text.byteLength parts.1).getD (Text.byteLength text)
      = Text.byteLength (text.takeWhile (· ≠ c)) := by
  induction text with
  | nil => rfl
  | cons d rest ih =>
    rw [Text.cutAt?]
    by_cases same : d = c
    · rw [if_pos same, List.takeWhile_cons_of_neg (by simpa using same)]
      rfl
    · rw [if_neg same, List.takeWhile_cons_of_pos (by simpa using same), Text.byteLength,
        Text.byteLength, ← ih]
      cases Text.cutAt? c rest <;> rfl

section

variable {text : Text} {place : Reader} (within : (Reader.ofText text).Reaches place)
  (stream : TokenStream)
include within

theorem scanStartTag_over {behind : Text} (bracket : place.rest = '<' :: behind)
    (positive : 0 < stream.lookahead) (phase : Phase) :
    (ByteStream.mk (place.over text) stream.lookahead phase stream.owed).scanStartTag
      = some (overOutcome text (stream.openTag place)) := by
  have inWindow := reaches_window within stream.lookahead
  have named := inWindow.trans (reaches_skipChar _)
  -- A window of no bytes would not show the bracket.
  have visible : (place.window stream.lookahead).rest
      = '<' :: Text.takeBytes (stream.lookahead - 1) behind := by
    rw [Reader.window, bracket, Text.takeBytes]
    exact if_pos positive
  rw [ByteStream.scanStartTag, bounded?_over, Option.bind_eq_bind, Option.bind_some,
    advance_over (by decide) visible, scanName_over named, TokenStream.openTag, readStartTag]
  dsimp only
  cases read : (place.window stream.lookahead).skipChar.readName? with
  | none => rfl
  | some parts =>
    obtain ⟨name, afterName⟩ := parts
    dsimp only [bind, Option.bind]
    rw [scanTagEnd_over (named.trans (reaches_readName? read))]
    dsimp only
    cases readTagEnd afterName with
    | error problem => rfl
    | ok ended =>
      obtain ⟨⟨attributes, selfClosing⟩, final⟩ := ended
      cases selfClosing <;> rfl

theorem scanEndTag_over {behind : Text} (bracket : place.rest = '<' :: '/' :: behind)
    (phase : Phase) :
    (ByteStream.mk (place.over text) stream.lookahead phase stream.owed).scanEndTag
      = some (overOutcome text (stream.closeTag place)) := by
  have atSlash := within.trans (reaches_skipChar place)
  have atName := atSlash.trans (reaches_skipChar place.skipChar)
  have slash : place.skipChar.rest = '/' :: behind := by rw [Reader.skipChar, bracket]
  have twice : (place.over text).advance 2 = place.skipChar.skipChar.over text := by
    rw [← advance_over (by decide) slash, ← advance_over (by decide) bracket]
    rfl
  rw [ByteStream.scanEndTag, twice, scanName_over atName, TokenStream.closeTag, readEndTag_eq]
  dsimp only
  cases read : place.skipChar.skipChar.readName? with
  | none => rfl
  | some parts =>
    obtain ⟨name, afterName⟩ := parts
    have behindName := atName.trans (reaches_readName? read)
    have spaced := behindName.trans (reaches_skipSpace afterName)
    dsimp only [bind, Option.bind]
    rw [skipSpace_over behindName, ← sees_over spaced (by decide)]
    cases closes : (afterName.skipSpace.over text).sees 0 '>' with
    | false => rfl
    | true =>
      obtain ⟨rest, whole⟩ := exists_of_sees spaced (by decide) closes
      rw [if_pos rfl, if_pos rfl, advance_over (by decide) whole]
      rfl

theorem scanData_over (phase : Phase) :
    (ByteStream.mk (place.over text) stream.lookahead phase stream.owed).scanData
      = some (.ok (some (.data (place.rest.takeWhile (· ≠ '<')))),
        ⟨(place.skipWhile (· ≠ '<')).over text, stream.lookahead, phase, stream.owed⟩) := by
  have parts : place.rest.takeWhile (· ≠ '<') ++ place.rest.dropWhile (· ≠ '<') = place.rest :=
    List.takeWhile_append_dropWhile
  have cut := slice?_over within parts.symm place.offset
  have last : ((Text.cutAt? '<' place.rest).map fun parts =>
      place.offset + Text.byteLength parts.1).getD (place.offset + Text.byteLength place.rest)
        = place.offset + Text.byteLength (place.rest.takeWhile (· ≠ '<')) := by
    rw [← getD_cutAt?]
    cases Text.cutAt? '<' place.rest <;> rfl
  rw [ByteStream.scanData]
  dsimp only
  rw [seek?_over within (by decide), Option.bind_eq_bind, Option.bind_some,
    remaining?_over within, Option.bind_eq_bind, Option.bind_some,
    show (place.over text).position = place.offset from rfl, last]
  exact (congrArg (Option.bind · _) cut).trans rfl

theorem seesStartTag_over :
    ((place.over text).sees 0 '<' && (place.over text).seesName 1)
      = TokenStream.beginsStartTag place.rest := by
  cases bracket : (place.over text).sees 0 '<' with
  | false =>
    symm
    rw [Bool.false_and, Bool.eq_false_iff]
    intro begins
    obtain ⟨c, behind, whole, _⟩ := exists_bracket_of_beginsStartTag begins
    rw [sees_eq_true within (by decide) whole] at bracket
    cases bracket
  | true =>
    obtain ⟨behind, whole⟩ := exists_of_sees within (by decide) bracket
    rw [seesName_behind within (by decide) whole, whole, Bool.true_and]
    cases behind <;> rfl

theorem scanToken_over (positive : 0 < stream.lookahead) :
    (ByteStream.mk (place.over text) stream.lookahead .content stream.owed).scanToken
      = some (overOutcome text (stream.tokenAt place)) := by
  have tight := within.trans (reaches_skipSpace place)
  rw [ByteStream.scanToken]
  dsimp only
  rw [skipSpace_over within, isAtEnd_over within, seesStartTag_over tight]
  by_cases atEnd : place.rest = []
  · rw [TokenStream.tokenAt, atEnd]
    rfl
  obtain ⟨c, others, whole⟩ := List.exists_cons_of_ne_nil atEnd
  rw [if_neg (by simpa using atEnd)]
  cases begins : TokenStream.beginsStartTag place.skipSpace.rest with
  | true =>
    obtain ⟨d, behind, bracket, _⟩ := exists_bracket_of_beginsStartTag begins
    rw [if_pos rfl, scanStartTag_over tight stream bracket positive, tokenAt_eq_openTag begins]
    rfl
  | false =>
    rw [if_neg Bool.false_ne_true, seesEndTag?_over within, Option.bind_eq_bind, Option.bind_some]
    cases ends : TokenStream.beginsEndTag place.rest with
    | true =>
      obtain ⟨behind, bracket⟩ := exists_bracket_of_beginsEndTag ends
      rw [if_pos rfl, scanEndTag_over within stream bracket, tokenAt_eq_closeTag begins ends]
      rfl
    | false =>
      rw [if_neg Bool.false_ne_true]
      cases other : (place.over text).sees 0 '<' with
      | true =>
        obtain ⟨behind, bracket⟩ := exists_of_sees within (by decide) other
        rw [if_pos rfl, tokenAt_unsupported bracket begins ends]
        rfl
      | false =>
        have plain : c ≠ '<' := fun same => by
          rw [sees_eq_true within (by decide) (same ▸ whole)] at other
          cases other
        rw [if_neg Bool.false_ne_true, tokenAt_data whole plain begins, scanData_over within]
        rfl

end

section

variable {text : Text} {stream : TokenStream}
  (within : (Reader.ofText text).Reaches stream.reader) (positive : 0 < stream.lookahead)
include within positive

/-- Pulling a token byte by byte is pulling it character by character. -/
theorem next_over : (stream.over text).next = some (overOutcome text stream.next) := by
  obtain ⟨reader, lookahead, phase, owed⟩ := stream
  cases phase with
  | finished => rfl
  | content =>
    cases owed with
    | some name => rfl
    | none => exact scanToken_over within _ positive
  | afterEndTag =>
    cases owed with
    | some name => rfl
    | none =>
      have spaced := within.trans (reaches_skipSpace reader)
      have token := scanToken_over spaced ⟨reader, lookahead, .afterEndTag, none⟩ positive
      rw [← skipSpace_over within] at token
      exact token

theorem first_over : (stream.over text).first = some (overOutcome text stream.first) := by
  rw [ByteStream.first, show (stream.over text).scanner = stream.reader.over text from rfl,
    seekStartTag_over within, startTagPlace]
  cases cut : TokenStream.cutAtStartTag? stream.reader.rest with
  | none =>
    rw [TokenStream.first, cut]
    rfl
  | some parts =>
    obtain ⟨prolog, found⟩ := parts
    obtain ⟨whole, _, begins⟩ := cutAtStartTag?_eq_some cut
    obtain ⟨c, behind, bracket, _⟩ := exists_bracket_of_beginsStartTag begins
    have atTag : (Reader.ofText text).Reaches
        ⟨stream.reader.offset + Text.byteLength prolog, found⟩ :=
      within.trans ⟨prolog, whole, rfl⟩
    have sliced := slice?_over within whole (stream.reader.offset + Text.byteLength prolog)
    have opened := scanStartTag_over atTag stream bracket positive stream.phase
    rw [first_eq_openTag cut, Option.bind_eq_bind, Option.bind_some]
    refine (congrArg (Option.bind · _) sliced).trans ((congrArg (Option.bind · _) opened).trans ?_)
    rfl

end

end MailMerge.Markup
