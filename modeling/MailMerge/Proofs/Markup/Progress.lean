import MailMerge.Proofs.Markup.ByteTokens
import MailMerge.Proofs.Markup.Parsed

set_option autoImplicit false

namespace MailMerge.Markup

/-- The outcome of a call for the first start tag, as that of a call for a token. -/
def openingOutcome (outcome : Except Error (Text × StartTag)) : Except Error (Option Token) :=
  outcome.map fun (_, tag) => some (.opening tag)

def isToken : Except Error (Option Token) → Bool
  | .ok (some _) => true
  | _ => false

namespace TokenStream

/-- A call for the first start tag or one for the next token. -/
def call (seeks : Bool) (stream : TokenStream) : Except Error (Option Token) × TokenStream :=
  if seeks then stream.first.map openingOutcome id else stream.next

/-- The stream in front of each call. Only the first call can be one for the first start tag. -/
def front (seeks : Bool) (stream : TokenStream) : Nat → TokenStream
  | 0 => stream
  | n + 1 => ((front seeks stream n).call (seeks && n == 0)).2

def outcome (seeks : Bool) (stream : TokenStream) (n : Nat) : Except Error (Option Token) :=
  ((stream.front seeks n).call (seeks && n == 0)).1

end TokenStream

namespace ByteStream

/-- A call for the first start tag or one for the next token. -/
def call (seeks : Bool) (stream : ByteStream) :
    Option (Except Error (Option Token) × ByteStream) :=
  if seeks then stream.first.map (Prod.map openingOutcome id) else stream.next

def front (seeks : Bool) (stream : ByteStream) : Nat → Option ByteStream
  | 0 => some stream
  | n + 1 => do
    let here ← front seeks stream n
    let (_, after) ← here.call (seeks && n == 0)
    return after

def outcome (seeks : Bool) (stream : ByteStream) (n : Nat) :
    Option (Except Error (Option Token)) := do
  let here ← stream.front seeks n
  let (outcome, _) ← here.call (seeks && n == 0)
  return outcome

end ByteStream

/-- A problem that was found no further than some position. -/
def FoundWithin (limit : Nat) (error : Error) : Prop :=
  ∃ problem position, error = .malformed problem position ∧ position ≤ limit

/-- What a call gives and what it leaves. -/
inductive Called (text : Text) (seeks : Bool) (stream : TokenStream) :
    Except Error (Option Token) → TokenStream → Prop
  | owed {name : Text} (active : stream.phase ≠ .finished) (owes : stream.owed = some name) :
      Called text seeks stream (.ok (some (.closing name)))
        ⟨stream.reader, stream.lookahead, .afterEndTag, none⟩
  | opening {tag : StartTag} {place : Reader} (active : stream.phase ≠ .finished)
      (owes : stream.owed = none) (reaches : stream.reader.Reaches place)
      (takes : stream.offset + 2 ≤ place.offset) :
      Called text seeks stream (.ok (some (.opening tag))) (.behind stream.lookahead tag place)
  | closing {name : Text} {place : Reader} (active : stream.phase ≠ .finished)
      (owes : stream.owed = none) (reaches : stream.reader.Reaches place)
      (takes : stream.offset < place.offset) :
      Called text seeks stream (.ok (some (.closing name)))
        ⟨place, stream.lookahead, .afterEndTag, none⟩
  | data {piece : Text} {place : Reader} (active : stream.phase ≠ .finished)
      (owes : stream.owed = none) (reaches : stream.reader.Reaches place)
      (takes : stream.offset < place.offset) (filled : piece ≠ []) :
      Called text seeks stream (.ok (some (.data piece))) ⟨place, stream.lookahead, .content, none⟩
  | stopped {outcome : Except Error (Option Token)} {place : Reader}
      (owes : stream.owed = none) (reaches : stream.reader.Reaches place)
      (nothing : isToken outcome = false)
      (still : stream.phase = .finished → outcome = .ok none)
      (bounded : ∀ error, outcome = .error error →
        seeks = true ∧ error = .noRootElement ∨ FoundWithin (Text.byteLength text) error) :
      Called text seeks stream outcome ⟨place, stream.lookahead, .finished, none⟩

/-- The number of tokens that can still come: one for each byte, and the end tag that is owed. -/
def TokenStream.budget (stream : TokenStream) : Nat :=
  Text.byteLength stream.rest + (if stream.owed.isSome then 1 else 0)

/-- A place between two characters of the text, and no debt behind the end. -/
structure Sound (text : Text) (stream : TokenStream) : Prop where
  within : (Reader.ofText text).Reaches stream.reader
  positive : 0 < stream.lookahead
  idle : stream.phase = .finished → stream.owed = none

section

variable {stream after : TokenStream} {place : Reader}

theorem openTag_eq_error {error : Error} (failure : stream.openTag place = (.error error, after)) :
    after = stream.stopAt place ∧
      FoundWithin (place.offset + Text.byteLength place.rest) error := by
  unfold TokenStream.openTag at failure
  split at failure
  · rename_i problem found read
    cases failure
    -- The problem lies in the window, and the window in the text.
    obtain ⟨beyond, whole⟩ := takeBytes_prefix stream.lookahead place.rest
    have sum : found.offset + Text.byteLength found.rest
        = place.offset + Text.byteLength (Text.takeBytes stream.lookahead place.rest) :=
      (reaches_readStartTag_error read).sum_eq
    have length := Text.byteLength_append (Text.takeBytes stream.lookahead place.rest) beyond
    rw [whole] at length
    exact ⟨rfl, problem, found.offset, rfl, by omega⟩
  · cases failure

theorem closeTag_eq_error {error : Error}
    (failure : stream.closeTag place = (.error error, after)) :
    ∃ found, place.Reaches found ∧ after = stream.stopAt found ∧
      FoundWithin (place.offset + Text.byteLength place.rest) error := by
  unfold TokenStream.closeTag at failure
  split at failure
  · rename_i problem found read
    cases failure
    have reaches := reaches_readEndTag_error read
    have sum := reaches.sum_eq
    exact ⟨found, reaches, rfl, problem, found.offset, rfl, by omega⟩
  · cases failure

/-- Where there is no token, the stream stops. -/
theorem tokenAt_stops {outcome : Except Error (Option Token)}
    (token : stream.tokenAt place = (outcome, after)) (nothing : isToken outcome = false) :
    ∃ found, place.Reaches found ∧ after = stream.stopAt found ∧
      ∀ error, outcome = .error error →
        FoundWithin (place.offset + Text.byteLength place.rest) error := by
  unfold TokenStream.tokenAt at token
  split at token
  · cases token
    exact ⟨place, .refl place, rfl, fun error same => by cases same⟩
  · split at token
    · split at token
      · cases token
        cases nothing
      · rename_i opened
        cases token
        obtain ⟨same, problem, position, rfl, le⟩ := openTag_eq_error opened
        have spaced := reaches_skipSpace place
        refine ⟨place.skipSpace, spaced, same, ?_⟩
        rintro _ ⟨⟩
        exact ⟨problem, position, rfl, le.trans (Nat.le_of_eq spaced.sum_eq)⟩
    · split at token
      · split at token
        · cases token
          cases nothing
        · rename_i closed
          cases token
          obtain ⟨found, reaches, same, within⟩ := closeTag_eq_error closed
          refine ⟨found, reaches, same, ?_⟩
          rintro _ ⟨⟩
          exact within
      · split at token
        · cases token
          refine ⟨place, .refl place, rfl, ?_⟩
          rintro _ ⟨⟩
          exact ⟨_, _, rfl, Nat.le_add_right _ _⟩
        · cases token
          cases nothing

theorem data_ne_nil_of_tokenAt {piece : Text}
    (token : stream.tokenAt place = (.ok (some (.data piece)), after)) : piece ≠ [] := by
  unfold TokenStream.tokenAt at token
  split at token
  · cases token
  · rename_i c rest whole
    split at token
    · split at token <;> cases token
    · split at token
      · split at token <;> cases token
      · split at token
        · cases token
        · rename_i other
          cases token
          rw [whole, List.takeWhile_cons_of_pos (by simpa using other)]
          exact List.cons_ne_nil _ _

/-- Character data is never empty. -/
theorem data_ne_nil_of_next {piece : Text}
    (next : stream.next = (.ok (some (.data piece)), after)) : piece ≠ [] := by
  unfold TokenStream.next at next
  split at next
  · cases next
  · cases next
  · exact data_ne_nil_of_tokenAt next
  · exact data_ne_nil_of_tokenAt next

/-- Passing over a character passes over a byte. -/
theorem offset_lt_of_reaches {reader other : Reader} (reaches : reader.Reaches other)
    (shorter : other.rest.length < reader.rest.length) : reader.offset < other.offset := by
  obtain ⟨passed, whole, offset⟩ := reaches
  have length := Text.length_le_byteLength passed
  rw [whole, List.length_append] at shorter
  omega

theorem Reader.Reaches.le {reader other : Reader} (reaches : reader.Reaches other) :
    reader.offset ≤ other.offset := by
  obtain ⟨passed, _, offset⟩ := reaches
  omega

/-- A start tag has an angle bracket in front of its name. -/
theorem StartTagText.two_le {tag : StartTag} {text : Text} (opens : StartTagText tag text) :
    2 ≤ Text.byteLength text := by
  cases opens with
  | @intro rest isName longest inside =>
    have filled := List.length_pos_of_ne_nil inside.ne_nil
    have length := Text.length_le_byteLength ('<' :: (tag.name ++ rest))
    rw [List.length_cons, List.length_append] at length
    omega

variable {text : Text} {seeks : Bool} {outcome : Except Error (Option Token)}

theorem next_of_finished (finished : stream.phase = .finished) :
    stream.next = (.ok none, stream) := by
  obtain ⟨reader, lookahead, phase, owed⟩ := stream
  cases finished
  rfl

theorem called_of_token {token : Token} (next : stream.next = (.ok (some token), after)) :
    Called text seeks stream (.ok (some token)) after := by
  have reaches := reaches_next next
  have shorter := TokenStream.size_next_lt next
  have active : stream.phase ≠ .finished := fun finished => by
    rw [next_of_finished finished] at next
    cases next
  have takes : stream.owed = none → after.reader.rest.length < stream.reader.rest.length :=
    fun owes => by
      rw [TokenStream.size, TokenStream.size, owes] at shorter
      simp only [Option.isSome_none, Bool.false_eq_true, ↓reduceIte] at shorter
      omega
  cases tokenRead_of_next next with
  | owed owes => exact .owed active owes
  | closing owes =>
    exact .closing active owes reaches (offset_lt_of_reaches reaches (takes owes))
  | @opening tag space opening place owes blank opens fits consumed =>
    have sum : place.offset + Text.byteLength place.rest
        = stream.reader.offset + Text.byteLength stream.reader.rest := reaches.sum_eq
    have length := congrArg Text.byteLength consumed
    have two := opens.two_le
    rw [Text.byteLength_append, Text.byteLength_append, TokenStream.rest] at length
    refine .opening active owes reaches ?_
    rw [TokenStream.offset]
    omega
  | data owes =>
    exact .data active owes reaches (offset_lt_of_reaches reaches (takes owes))
      (data_ne_nil_of_next next)

/-- Where there is no token at the place that was reached, the stream stops. -/
theorem called_of_tokenAt {place : Reader} (sound : Sound text stream)
    (active : stream.phase ≠ .finished) (owes : stream.owed = none)
    (reaches : stream.reader.Reaches place) (token : stream.tokenAt place = (outcome, after))
    (nothing : isToken outcome = false) : Called text seeks stream outcome after := by
  obtain ⟨found, further, rfl, within⟩ := tokenAt_stops token nothing
  have stopped : stream.stopAt found = ⟨found, stream.lookahead, .finished, none⟩ := by
    rw [TokenStream.stopAt, owes]
  have whole : place.offset + Text.byteLength place.rest = 0 + Text.byteLength text :=
    (sound.within.trans reaches).sum_eq
  rw [stopped]
  refine .stopped owes (reaches.trans further) nothing (fun finished => absurd finished active)
    fun error same => ?_
  obtain ⟨problem, position, rfl, le⟩ := within error same
  exact Or.inr ⟨problem, position, rfl, by omega⟩

theorem called_of_stop (sound : Sound text stream) (next : stream.next = (outcome, after))
    (nothing : isToken outcome = false) : Called text seeks stream outcome after := by
  obtain ⟨reader, lookahead, phase, owed⟩ := stream
  cases phase with
  | finished =>
    cases next
    cases sound.idle rfl
    exact .stopped rfl (.refl _) rfl (fun _ => rfl) (fun error same => by cases same)
  | content =>
    cases owed with
    | some name =>
      cases next
      cases nothing
    | none => exact called_of_tokenAt sound (by simp) rfl (.refl reader) next nothing
  | afterEndTag =>
    cases owed with
    | some name =>
      cases next
      cases nothing
    | none =>
      exact called_of_tokenAt sound (by simp) rfl (reaches_skipSpace reader) next nothing

/-- A call for the next token. -/
theorem called_of_next (sound : Sound text stream) :
    Called text seeks stream stream.next.1 stream.next.2 := by
  cases next : stream.next with
  | mk outcome after =>
    cases token : isToken outcome with
    | false => exact called_of_stop sound next token
    | true =>
      match outcome, token with
      | .ok (some token), _ => exact called_of_token next

end

theorem sound_ofText (lookahead : Nat) (text : Text) : Sound text (.ofText lookahead text) :=
  ⟨.refl _, show 0 < max lookahead 1 by omega, fun _ => rfl⟩

/-- Without a first start tag, the stream stops. -/
theorem called_of_first_error {lookahead : Nat} {text : Text} {error : Error} {after : TokenStream}
    (first : (TokenStream.ofText lookahead text).first = (.error error, after)) :
    Called text true (.ofText lookahead text) (.error error) after := by
  have stops : ∃ found, (Reader.ofText text).Reaches found ∧
      after = (TokenStream.ofText lookahead text).stopAt found ∧
      (error = .noRootElement ∨ FoundWithin (Text.byteLength text) error) := by
    cases cut : TokenStream.cutAtStartTag? text with
    | none =>
      rw [first_eq_noRootElement cut] at first
      cases first
      exact ⟨_, reaches_startTagPlace _, rfl, Or.inl rfl⟩
    | some parts =>
      obtain ⟨prolog, found⟩ := parts
      have whole := (cutAtStartTag?_eq_some cut).1
      have reaches : (Reader.ofText text).Reaches ⟨0 + Text.byteLength prolog, found⟩ :=
        ⟨prolog, whole, rfl⟩
      rw [first_eq_openTag cut] at first
      cases opened : (TokenStream.ofText lookahead text).openTag
          ⟨0 + Text.byteLength prolog, found⟩ with
      | mk outcome behind =>
        rw [show (TokenStream.ofText lookahead text).reader.offset = 0 from rfl, opened] at first
        cases outcome with
        | ok tag => cases first
        | error problem =>
          cases first
          obtain ⟨same, problem, position, rfl, le⟩ := openTag_eq_error opened
          have sum : 0 + Text.byteLength prolog + Text.byteLength found
              = 0 + Text.byteLength text := reaches.sum_eq
          dsimp only at le
          exact ⟨_, reaches, same, Or.inr ⟨problem, position, rfl, by omega⟩⟩
  obtain ⟨found, reaches, rfl, bounded⟩ := stops
  refine .stopped rfl reaches rfl (fun finished => by cases finished) ?_
  rintro _ ⟨⟩
  exact bounded.imp_left fun same => ⟨rfl, same⟩

/-- A call for the first start tag. -/
theorem called_of_first (lookahead : Nat) (text : Text) :
    Called text true (.ofText lookahead text) ((TokenStream.ofText lookahead text).call true).1
      ((TokenStream.ofText lookahead text).call true).2 := by
  cases first : (TokenStream.ofText lookahead text).first with
  | mk outcome after =>
    have called : (TokenStream.ofText lookahead text).call true
        = (openingOutcome outcome, after) := by
      rw [TokenStream.call, if_pos rfl, first]
      rfl
    rw [called]
    cases outcome with
    | error error => exact called_of_first_error first
    | ok parts =>
      obtain ⟨prolog, tag⟩ := parts
      have reaches := reaches_first first
      obtain ⟨opening, place, _, opens, _, whole, rfl⟩ := first_eq_ok first
      have sum : place.offset + Text.byteLength place.rest = 0 + Text.byteLength text :=
        reaches.sum_eq
      have length := congrArg Text.byteLength whole
      have two := opens.two_le
      rw [Text.byteLength_append, Text.byteLength_append] at length
      refine .opening (by simp [TokenStream.ofText]) rfl reaches ?_
      show 0 + 2 ≤ place.offset
      omega

section

variable {text : Text} {seeks : Bool} {stream after : TokenStream}
  {outcome : Except Error (Option Token)} (called : Called text seeks stream outcome after)
include called

theorem Called.reaches : stream.reader.Reaches after.reader := by
  cases called with
  | owed => exact .refl _
  | opening _ _ reaches => exact reaches
  | closing _ _ reaches => exact reaches
  | data _ _ reaches => exact reaches
  | stopped _ reaches => exact reaches

theorem Called.sound (sound : Sound text stream) : Sound text after := by
  have within := sound.within.trans called.reaches
  cases called with
  | owed => exact ⟨within, sound.positive, fun _ => rfl⟩
  | opening => exact ⟨within, sound.positive, fun finished => by cases finished⟩
  | closing => exact ⟨within, sound.positive, fun _ => rfl⟩
  | data => exact ⟨within, sound.positive, fun _ => rfl⟩
  | stopped => exact ⟨within, sound.positive, fun _ => rfl⟩

/-- An end tag that is owed comes next and takes no text. -/
theorem Called.pays {name : Text} (owes : stream.owed = some name) :
    outcome = .ok (some (.closing name)) ∧ after.offset = stream.offset := by
  cases called with
  | owed _ other =>
    rw [other] at owes
    cases owes
    exact ⟨rfl, rfl⟩
  | opening _ none => simp [none] at owes
  | closing _ none => simp [none] at owes
  | data _ none => simp [none] at owes
  | stopped none => simp [none] at owes

/-- An end tag is owed for a start tag that closed itself, and for nothing else. -/
theorem Called.owed_iff {name : Text} : after.owed = some name ↔
    ∃ tag, outcome = .ok (some (.opening tag)) ∧ tag.selfClosing = true ∧ tag.name = name := by
  cases called with
  | owed => simp
  | @opening tag place => simp [TokenStream.behind]
  | closing => simp
  | data => simp
  | stopped _ _ nothing =>
    constructor
    · intro owes
      cases owes
    · rintro ⟨tag, rfl, _⟩
      cases nothing

/-- A token takes some of the text, unless it was owed. -/
theorem Called.takes {token : Token} (same : outcome = .ok (some token)) :
    stream.offset < after.offset ∨ ∃ name, stream.owed = some name ∧ token = .closing name := by
  cases called with
  | owed _ owes =>
    cases same
    exact Or.inr ⟨_, owes, rfl⟩
  | opening _ _ _ takes => exact Or.inl (Nat.lt_of_lt_of_le (by omega) takes)
  | closing _ _ _ takes => exact Or.inl takes
  | data _ _ _ takes => exact Or.inl takes
  | stopped _ _ nothing =>
    rw [same] at nothing
    cases nothing

omit called in
theorem budget_of_owed_none (owes : stream.owed = none) :
    stream.budget = Text.byteLength stream.reader.rest := by
  rw [TokenStream.budget, owes]
  rfl

/-- Each token is paid for with a byte. A start tag that closes itself has one to spare for its end
tag. -/
theorem Called.spends : after.budget + (if isToken outcome then 1 else 0) ≤ stream.budget := by
  cases called with
  | owed _ owes => simp [TokenStream.budget, isToken, owes, TokenStream.rest]
  | @opening tag place _ owes reaches takes =>
    have sum := reaches.sum_eq
    -- Of the two bytes that were taken, one pays for the end tag that may be owed from now on.
    have room : (TokenStream.behind stream.lookahead tag place).budget
        ≤ Text.byteLength place.rest + 1 := by
      cases single : tag.selfClosing <;>
        simp [TokenStream.budget, TokenStream.behind, TokenStream.rest, single]
    rw [TokenStream.offset] at takes
    rw [budget_of_owed_none owes, isToken, if_pos rfl]
    omega
  | closing _ owes reaches takes =>
    have sum := reaches.sum_eq
    rw [TokenStream.offset] at takes
    rw [budget_of_owed_none owes, budget_of_owed_none rfl, isToken, if_pos rfl]
    dsimp only
    omega
  | data _ owes reaches takes =>
    have sum := reaches.sum_eq
    rw [TokenStream.offset] at takes
    rw [budget_of_owed_none owes, budget_of_owed_none rfl, isToken, if_pos rfl]
    dsimp only
    omega
  | stopped owes reaches nothing =>
    have sum := reaches.sum_eq
    have onward := reaches.le
    rw [budget_of_owed_none owes, budget_of_owed_none rfl, nothing, if_neg Bool.false_ne_true]
    dsimp only
    omega

theorem Called.problems {error : Error} (failure : outcome = .error error) :
    seeks = true ∧ error = .noRootElement ∨ FoundWithin (Text.byteLength text) error := by
  cases called with
  | stopped _ _ _ _ bounded => exact bounded error failure
  | owed => cases failure
  | opening => cases failure
  | closing => cases failure
  | data => cases failure

theorem Called.filled {piece : Text} (same : outcome = .ok (some (.data piece))) : piece ≠ [] := by
  cases called with
  | data _ _ _ _ filled =>
    cases same
    exact filled
  | stopped _ _ nothing =>
    rw [same] at nothing
    cases nothing
  | owed => cases same
  | opening => cases same
  | closing => cases same

theorem Called.finished (nothing : isToken outcome = false) : after.phase = .finished := by
  cases called with
  | stopped => rfl
  | owed => cases nothing
  | opening => cases nothing
  | closing => cases nothing
  | data => cases nothing

theorem Called.still (finished : stream.phase = .finished) : outcome = .ok none := by
  cases called with
  | stopped _ _ _ still => exact still finished
  | owed active => exact absurd finished active
  | opening active => exact absurd finished active
  | closing active => exact absurd finished active
  | data active => exact absurd finished active

end

theorem called_of_call (lookahead : Nat) {text : Text} {seeks : Bool} {stream : TokenStream}
    (sound : Sound text stream) (fresh : seeks = true → stream = .ofText lookahead text) :
    Called text seeks stream (stream.call seeks).1 (stream.call seeks).2 := by
  cases seeks with
  | false => exact called_of_next sound
  | true =>
    rw [fresh rfl]
    exact called_of_first lookahead text

section

variable (lookahead : Nat) (text : Text) (seeks : Bool)

theorem called_front {n : Nat}
    (sound : Sound text ((TokenStream.ofText lookahead text).front seeks n)) :
    Called text (seeks && n == 0) ((TokenStream.ofText lookahead text).front seeks n)
      ((TokenStream.ofText lookahead text).outcome seeks n)
      ((TokenStream.ofText lookahead text).front seeks (n + 1)) := by
  refine called_of_call lookahead sound fun first => ?_
  rw [Bool.and_eq_true, beq_iff_eq] at first
  rw [first.2]
  rfl

theorem sound_front (n : Nat) :
    Sound text ((TokenStream.ofText lookahead text).front seeks n) := by
  induction n with
  | zero => exact sound_ofText lookahead text
  | succ n ih => exact (called_front lookahead text seeks ih).sound ih

/-- Byte by byte, every call gives the same. -/
theorem call_over {stream : TokenStream} (sound : Sound text stream) :
    (stream.over text).call seeks
      = some ((stream.call seeks).1, (stream.call seeks).2.over text) := by
  cases seeks with
  | false => exact next_over sound.within sound.positive
  | true =>
    have first := first_over sound.within sound.positive
    rw [ByteStream.call, if_pos rfl, first]
    rfl

theorem front_over (n : Nat) :
    (ByteStream.ofText lookahead text).front seeks n
      = some (((TokenStream.ofText lookahead text).front seeks n).over text) := by
  induction n with
  | zero => rfl
  | succ n ih =>
    have step := call_over text (seeks && n == 0) (sound_front lookahead text seeks n)
    rw [ByteStream.front, ih, Option.bind_eq_bind, Option.bind_some, step]
    rfl

theorem outcome_over (n : Nat) :
    (ByteStream.ofText lookahead text).outcome seeks n
      = some ((TokenStream.ofText lookahead text).outcome seeks n) := by
  have step := call_over text (seeks && n == 0) (sound_front lookahead text seeks n)
  rw [ByteStream.outcome, front_over, Option.bind_eq_bind, Option.bind_some, step]
  rfl

end

/-- What can be said of a sequence of calls by the positions in front of them and their outcomes. -/
structure Progress (text : Text) (offset : Nat → Nat)
    (outcome : Nat → Except Error (Option Token)) : Prop where
  /-- Every position lies between two characters, or at an end of the text. -/
  boundary : ∀ n, Text.isBoundary (offset n) text = true
  inside : ∀ n, offset n ≤ Text.byteLength text
  /-- No position lies in front of an earlier one. -/
  onward : ∀ n m, n ≤ m → offset n ≤ offset m
  /-- A problem is found in the text. Only the first call can find that there is no element. -/
  problems : ∀ n error, outcome n = .error error →
    n = 0 ∧ error = .noRootElement ∨ FoundWithin (Text.byteLength text) error
  /-- A token takes some of the text, unless it is the end tag of one that closed itself. -/
  takes : ∀ n token, outcome n = .ok (some token) →
    offset n < offset (n + 1) ∨
      ∃ m tag, n = m + 1 ∧ outcome m = .ok (some (.opening tag)) ∧ tag.selfClosing = true ∧
        token = .closing tag.name
  /-- Character data is never empty. -/
  filled : ∀ n piece, outcome n = .ok (some (.data piece)) → piece ≠ []
  /-- Behind a start tag that closes itself comes its end tag, which takes no text. -/
  pays : ∀ n tag, outcome n = .ok (some (.opening tag)) → tag.selfClosing = true →
    outcome (n + 1) = .ok (some (.closing tag.name)) ∧ offset (n + 2) = offset (n + 1)
  /-- There are no more tokens than bytes. -/
  few : ∀ n, (List.range n).countP (fun k => isToken (outcome k)) ≤ Text.byteLength text
  /-- Behind an error or the end, nothing comes. -/
  stops : ∀ n, isToken (outcome n) = false → ∀ m, n < m → outcome m = .ok none

section

variable {text : Text} {seeks : Bool} {streams : Nat → TokenStream}
  {outcome : Nat → Except Error (Option Token)}
  (called : ∀ n, Called text (seeks && n == 0) (streams n) (outcome n) (streams (n + 1)))
include called

theorem reaches_of_le {n m : Nat} (le : n ≤ m) : (streams n).reader.Reaches (streams m).reader := by
  induction le with
  | refl => exact .refl _
  | @step m le ih => exact ih.trans (called m).reaches

theorem countP_isToken_le (n : Nat) :
    (streams n).budget + (List.range n).countP (fun k => isToken (outcome k))
      ≤ (streams 0).budget := by
  induction n with
  | zero => simp
  | succ n ih =>
    have step := (called n).spends
    rw [List.range_succ, List.countP_append, List.countP_singleton]
    omega

/-- Once a call gave no token, the stream has stopped for good. -/
theorem finished_of_lt {n m : Nat} (nothing : isToken (outcome n) = false) (lt : n < m) :
    (streams m).phase = .finished := by
  induction lt with
  | refl => exact (called n).finished nothing
  | @step m lt ih =>
    have still := (called m).still ih
    exact (called m).finished (by rw [still]; rfl)

/-- Whatever is owed was left open by the call before. -/
theorem exists_opening_of_owed (start : (streams 0).owed = none) {n : Nat} {name : Text}
    (owes : (streams n).owed = some name) :
    ∃ m tag, n = m + 1 ∧ outcome m = .ok (some (.opening tag)) ∧ tag.selfClosing = true ∧
      tag.name = name := by
  cases n with
  | zero =>
    rw [start] at owes
    cases owes
  | succ m =>
    obtain ⟨tag, opened, single, same⟩ := (called m).owed_iff.1 owes
    exact ⟨m, tag, rfl, opened, single, same⟩

theorem progress_of_called (within : (Reader.ofText text).Reaches (streams 0).reader)
    (start : (streams 0).owed = none) :
    Progress text (fun n => (streams n).offset) outcome where
  boundary n := isBoundary_offset (within.trans (reaches_of_le called (Nat.zero_le n)))
  inside n := Text.le_of_isBoundary
    (isBoundary_offset (within.trans (reaches_of_le called (Nat.zero_le n))))
  onward n m le := (reaches_of_le called le).le
  problems n error failure := by
    refine ((called n).problems failure).imp_left fun seeking => ⟨?_, seeking.2⟩
    rw [Bool.and_eq_true, beq_iff_eq] at seeking
    exact seeking.1.2
  takes n token same := by
    rcases (called n).takes same with taken | ⟨name, owes, rfl⟩
    · exact Or.inl taken
    · obtain ⟨m, tag, next, opened, single, rfl⟩ := exists_opening_of_owed called start owes
      exact Or.inr ⟨m, tag, next, opened, single, rfl⟩
  filled n piece same := (called n).filled same
  pays n tag opened single := by
    have owes := (called n).owed_iff.2 ⟨tag, opened, single, rfl⟩
    exact (called (n + 1)).pays owes
  few n := by
    have paid := countP_isToken_le called n
    have whole := within.sum_eq
    rw [budget_of_owed_none start] at paid
    have length : (Reader.ofText text).offset + Text.byteLength (Reader.ofText text).rest
        = 0 + Text.byteLength text := rfl
    omega
  stops n nothing m lt := (called m).still (finished_of_lt called nothing lt)

end

/-- Any number of calls, the first of them possibly one for the first start tag. Byte by byte, no
piece of the text is ever taken from inside a character or from behind the end, and the outcomes and
positions are those of reading character by character, which make progress. -/
theorem calls_progress (lookahead : Nat) (text : Text) (seeks : Bool) :
    let stream := TokenStream.ofText lookahead text
    (∀ n, (ByteStream.ofText lookahead text).front seeks n
          = some ((stream.front seeks n).over text) ∧
        (ByteStream.ofText lookahead text).outcome seeks n = some (stream.outcome seeks n)) ∧
      Progress text (fun n => (stream.front seeks n).offset) (stream.outcome seeks) := by
  intro stream
  refine ⟨fun n => ⟨front_over lookahead text seeks n, outcome_over lookahead text seeks n⟩, ?_⟩
  exact progress_of_called (fun n => called_front lookahead text seeks (sound_front _ _ _ n))
    (.refl _) rfl

end MailMerge.Markup
