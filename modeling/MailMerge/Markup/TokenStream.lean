import MailMerge.Markup.Tag

/-!
The tokens of a document part, pulled one by one: start tags, end tags and character data. Space
behind an end tag and space in front of a start tag belong to no token. A start tag that closes
itself is followed by an end tag of its own that takes no text. After an error and after the end of
the text there are no more tokens.
-/

set_option autoImplicit false

namespace MailMerge.Markup

inductive Token where
  | opening (tag : StartTag)
  | closing (name : Text)
  | data (text : Text)
  deriving Repr, DecidableEq

inductive Phase where
  /-- Between two tokens. -/
  | content
  /-- Behind an end tag, whose following space is skipped. -/
  | afterEndTag
  /-- At the end of the text or behind an error. -/
  | finished
  deriving Repr, DecidableEq

/-- The tokens that are still to come. -/
structure TokenStream where
  reader : Reader
  /-- The largest number of bytes that a start tag may take. -/
  lookahead : Nat
  phase : Phase
  /-- The element that closed itself and whose end tag comes next. -/
  owed : Option Text
  deriving Repr, DecidableEq

def defaultLookahead : Nat := 8096

namespace TokenStream

/-- All tokens of a text. A start tag may take one byte at least, whatever limit is asked for. -/
def ofText (lookahead : Nat) (text : Text) : TokenStream :=
  ⟨Reader.ofText text, max lookahead 1, .content, none⟩

/-- The number of bytes in front of what has not been read. -/
def offset (stream : TokenStream) : Nat := stream.reader.offset

def rest (stream : TokenStream) : Text := stream.reader.rest

/-- How much is still to come: an end tag that takes no text counts less than any character. -/
def size (stream : TokenStream) : Nat :=
  2 * stream.reader.rest.length + (if stream.owed.isSome then 1 else 0)

/-- The stream stopped at a place. -/
def stopAt (reader : Reader) (stream : TokenStream) : TokenStream :=
  { stream with reader := reader, phase := .finished }

/-- Reads the start tag at a place. A failure leaves the stream in front of the tag. -/
def openTag (place : Reader) (stream : TokenStream) : Except Error StartTag × TokenStream :=
  match readStartTag stream.lookahead place with
  | .error (problem, found) => (.error (.malformed problem found.offset), stream.stopAt place)
  | .ok (tag, after) =>
    let owed := if tag.selfClosing then some tag.name else stream.owed
    (.ok tag, { stream with reader := after, phase := .content, owed := owed })

/-- Reads the end tag at a place. A failure leaves the stream where the problem was found. -/
def closeTag (place : Reader) (stream : TokenStream) : Except Error Text × TokenStream :=
  match readEndTag place with
  | .error (problem, found) => (.error (.malformed problem found.offset), stream.stopAt found)
  | .ok (name, after) => (.ok name, { stream with reader := after, phase := .afterEndTag })

def beginsStartTag : Text → Bool
  | '<' :: c :: _ => isNameStart c
  | _ => false

def beginsEndTag : Text → Bool
  | '<' :: '/' :: _ => true
  | _ => false

/-- The token at a place behind all space that belongs to no token. -/
def tokenAt (place : Reader) (stream : TokenStream) :
    Except Error (Option Token) × TokenStream :=
  match place.rest with
  | [] => (.ok none, stream.stopAt place)
  | c :: _ =>
    if beginsStartTag place.skipSpace.rest then
      match stream.openTag place.skipSpace with
      | (.ok tag, after) => (.ok (some (.opening tag)), after)
      | (.error error, after) => (.error error, after)
    else if beginsEndTag place.rest then
      match stream.closeTag place with
      | (.ok name, after) => (.ok (some (.closing name)), after)
      | (.error error, after) => (.error error, after)
    else if c = '<' then
      (.error (.malformed .unsupportedConstruct place.offset), stream.stopAt place)
    else
      (.ok (some (.data (place.rest.takeWhile (· ≠ '<')))),
        { stream with reader := place.skipWhile (· ≠ '<'), phase := .content })

/-- The next token, or none at the end, and the stream behind it. -/
def next (stream : TokenStream) : Except Error (Option Token) × TokenStream :=
  match stream.phase, stream.owed with
  | .finished, _ => (.ok none, stream)
  | _, some name =>
    (.ok (some (.closing name)), { stream with phase := .afterEndTag, owed := none })
  | .afterEndTag, none => stream.tokenAt stream.reader.skipSpace
  | .content, none => stream.tokenAt stream.reader

def cutAtStartTag? : Text → Option (Text × Text)
  | [] => none
  | c :: rest =>
    if beginsStartTag (c :: rest) then some ([], c :: rest)
    else (cutAtStartTag? rest).map fun (before, found) => (c :: before, found)

/-- What follows the last opening angle bracket of a text. -/
def afterLastBracket? : Text → Option Text
  | [] => none
  | c :: rest => afterLastBracket? rest <|> if c = '<' then some rest else none

/-- Passes over everything in front of the first start tag and reads that tag. -/
def first (stream : TokenStream) : Except Error (Text × StartTag) × TokenStream :=
  let place := stream.reader
  match cutAtStartTag? place.rest with
  | none =>
    let rest := (afterLastBracket? place.rest).getD place.rest
    let passed := Text.byteLength place.rest - Text.byteLength rest
    (.error .noRootElement, stream.stopAt ⟨place.offset + passed, rest⟩)
  | some (prolog, found) =>
    match stream.openTag ⟨place.offset + Text.byteLength prolog, found⟩ with
    | (.ok tag, after) => (.ok (prolog, tag), after)
    | (.error error, after) => (.error error, after)

theorem size_openTag_lt {place : Reader} {stream after : TokenStream} {tag : StartTag}
    (success : stream.openTag place = (.ok tag, after))
    (inside : place.rest.length ≤ stream.reader.rest.length) : after.size < stream.size := by
  unfold openTag at success
  split at success
  · simp at success
  · rename_i opened behind read
    have shorter := length_readStartTag_lt read
    simp only [Prod.mk.injEq, Except.ok.injEq] at success
    rw [← success.2]
    simp only [size]
    split <;> split <;> omega

theorem size_closeTag_lt {place : Reader} {stream after : TokenStream} {name : Text}
    (success : stream.closeTag place = (.ok name, after))
    (inside : place.rest.length ≤ stream.reader.rest.length) : after.size < stream.size := by
  unfold closeTag at success
  split at success
  · simp at success
  · rename_i closed behind read
    have shorter := length_readEndTag_lt read
    simp only [Prod.mk.injEq, Except.ok.injEq] at success
    rw [← success.2]
    simp only [size]
    omega

theorem size_tokenAt_lt {place : Reader} {stream after : TokenStream} {token : Token}
    (success : stream.tokenAt place = (.ok (some token), after))
    (inside : place.rest.length ≤ stream.reader.rest.length) : after.size < stream.size := by
  unfold tokenAt at success
  split at success
  · simp at success
  · rename_i c tail whole
    have skipped := length_skipSpace_le place
    split at success
    · split at success
      · rename_i opened
        simp only [Prod.mk.injEq, Except.ok.injEq] at success
        rw [← success.2]
        exact size_openTag_lt opened (Nat.le_trans skipped inside)
      · simp at success
    · split at success
      · split at success
        · rename_i closed
          simp only [Prod.mk.injEq, Except.ok.injEq] at success
          rw [← success.2]
          exact size_closeTag_lt closed inside
        · simp at success
      · split at success
        · simp at success
        · rename_i other
          have shorter :=
            (List.dropWhile_sublist (fun d : Char => decide (d ≠ '<')) (l := tail)).length_le
          simp only [Prod.mk.injEq, Except.ok.injEq] at success
          rw [← success.2]
          rw [whole, List.length_cons] at inside
          simp only [size, Reader.skipWhile, whole]
          rw [List.dropWhile_cons_of_pos (by simpa using other)]
          omega

/-- Every token leaves less to come. -/
theorem size_next_lt {stream after : TokenStream} {token : Token}
    (success : stream.next = (.ok (some token), after)) : after.size < stream.size := by
  unfold next at success
  split at success
  · simp at success
  · rename_i name owing _
    simp only [Prod.mk.injEq, Except.ok.injEq] at success
    rw [← success.2]
    simp [size, owing]
  · exact size_tokenAt_lt success (length_skipSpace_le _)
  · exact size_tokenAt_lt success (Nat.le_refl _)

/-- The end leaves no more to come than there was. -/
theorem size_next_le {stream after : TokenStream}
    (success : stream.next = (.ok none, after)) : after.size ≤ stream.size := by
  have atEnd : ∀ place : Reader, place.rest.length ≤ stream.reader.rest.length →
      stream.tokenAt place = (.ok none, after) → after.size ≤ stream.size := by
    intro place inside ended
    unfold tokenAt at ended
    split at ended
    · simp only [Prod.mk.injEq, true_and] at ended
      rw [← ended]
      exact Nat.add_le_add_right (Nat.mul_le_mul_left 2 inside) _
    · split at ended
      · split at ended <;> simp at ended
      · split at ended
        · split at ended <;> simp at ended
        · split at ended <;> simp at ended
  unfold next at success
  split at success
  · simp only [Prod.mk.injEq, true_and] at success
    exact Nat.le_of_eq (congrArg size success.symm)
  · simp at success
  · exact atEnd _ (length_skipSpace_le _) success
  · exact atEnd _ (Nat.le_refl _) success

def toList (stream : TokenStream) : List Token × Option Error :=
  match _pulled : stream.next with
  | (.error error, _) => ([], some error)
  | (.ok none, _) => ([], none)
  | (.ok (some token), after) =>
    let (tokens, ending) := after.toList
    (token :: tokens, ending)
termination_by stream.size
decreasing_by exact size_next_lt _pulled

end TokenStream

end MailMerge.Markup
