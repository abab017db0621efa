import MailMerge.Proofs.Markup.Boundary

/-!
Reading the parts of a tag byte by byte. Here every position is a number of bytes, only single bytes
are looked at, and each piece of the text is taken between two positions, which fails if one of them
lies inside a character or behind the end. From a place between two characters it never fails, and
what is read is what is read character by character.
-/

set_option autoImplicit false

namespace MailMerge.Markup

namespace Scanner

def moveTo (position : Nat) (scanner : Scanner) : Scanner :=
  { scanner with position := position }

/-- The text between two offsets, if there is a boundary at both. -/
def slice? (first last : Nat) (scanner : Scanner) : Option Text :=
  if first ≤ last ∧ Text.isBoundary first scanner.text ∧ Text.isBoundary last scanner.text then
    some (scanner.slice first last)
  else none

/-- The text from the position on, if there is a boundary. -/
def remaining? (scanner : Scanner) : Option Text :=
  scanner.slice? scanner.position (Text.byteLength scanner.text)

/-- The bytes from the position on, if there is a boundary. -/
def bytesAhead? (scanner : Scanner) : Option (List UInt8) :=
  if Text.isBoundary scanner.position scanner.text then some scanner.bytesAhead else none

def seek? (c : Char) (scanner : Scanner) : Option (Option Nat) := do
  let ahead ← scanner.bytesAhead?
  return (ahead.findIdx? (· == c.toNat.toUInt8)).map (scanner.position + ·)

def seesEndTag? (scanner : Scanner) : Option Bool := do
  let ahead ← scanner.bytesAhead?
  return ['<'.toNat.toUInt8, '/'.toNat.toUInt8].isPrefixOf ahead

def sees (k : Nat) (c : Char) (scanner : Scanner) : Bool :=
  scanner.peek? k == some c.toNat.toUInt8

def seesName (k : Nat) (scanner : Scanner) : Bool := (scanner.peek? k).any isNameStartByte

def skipWhile (kind : UInt8 → Bool) (scanner : Scanner) : Scanner :=
  scanner.advance (scanner.bytesAhead.takeWhile kind).length

/-- The same position in a text that ends at most `n` bytes further, moved back to a boundary. -/
def bounded? (n : Nat) (scanner : Scanner) : Option Scanner := do
  let last := min (scanner.position + n) (Text.byteLength scanner.text)
  let text ← scanner.slice? 0 (Text.boundaryUpTo scanner.text last)
  return ⟨text, scanner.position⟩

def scanName (scanner : Scanner) : Option (Option Text × Scanner) :=
  if scanner.seesName 0 then do
    let behind := (scanner.advance 1).skipWhile isNameByte
    let name ← scanner.slice? scanner.position behind.position
    return (some name, behind)
  else some (none, scanner)

def scanQuoted (name : Text) (atValue : Scanner) :
    Option (Except MarkupProblem Attribute × Scanner) := do
  match ← atValue.seek? '"' with
  | none => return (.error .attributeValueUnclosed, atValue)
  | some last =>
    let value ← atValue.slice? atValue.position last
    return (.ok ⟨name, value⟩, atValue.moveTo (last + 1))

/-- Reads the rest of an attribute behind its name and the space that follows. -/
def scanValue (name : Text) (atEquals : Scanner) :
    Option (Except MarkupProblem Attribute × Scanner) :=
  if atEquals.sees 0 '=' then
    let atQuote := (atEquals.advance 1).skipSpace
    if atQuote.sees 0 '"' then (atQuote.advance 1).scanQuoted name
    else some (.error .attributeValueUnquoted, atQuote)
  else some (.error .attributeValueMissing, atEquals)

/-- Reads an attribute; after a problem the scanner stands where it was found. -/
def scanAttribute (scanner : Scanner) : Option (Except MarkupProblem Attribute × Scanner) := do
  match ← scanner.scanName with
  | (none, here) => return (.error .attributeNameExpected, here)
  | (some name, here) => here.skipSpace.scanValue name

theorem position_le_skipWhile (kind : UInt8 → Bool) (scanner : Scanner) :
    scanner.position ≤ (scanner.skipWhile kind).position := Nat.le_add_right _ _

/-- The first byte of a name may be passed over by itself, also if its character has more. -/
theorem skipWhile_advance {kind : UInt8 → Bool} {scanner : Scanner}
    (begins : (scanner.peek? 0).any kind = true) :
    (scanner.advance 1).skipWhile kind = scanner.skipWhile kind := by
  have ahead : (scanner.advance 1).bytesAhead = scanner.bytesAhead.drop 1 := by
    rw [bytesAhead, bytesAhead, List.drop_drop]
    rfl
  rw [skipWhile, skipWhile, ahead]
  rw [peek?] at begins
  cases bytes : scanner.bytesAhead with
  | nil =>
    rw [bytes] at begins
    cases begins
  | cons b others =>
    rw [bytes] at begins
    have first : kind b = true := begins
    rw [List.takeWhile_cons_of_pos first, List.length_cons, List.drop_succ_cons, List.drop_zero,
      Nat.add_comm]
    exact congrArg (Scanner.mk scanner.text) (Nat.add_assoc ..)

theorem le_seek? {c : Char} {scanner : Scanner} {place : Nat}
    (found : scanner.seek? c = some (some place)) :
    scanner.position ≤ place ∧ place < (Text.bytes scanner.text).length := by
  unfold seek? bytesAhead? at found
  split at found
  · simp only [Option.bind_eq_bind, Option.bind_some, Option.pure_def, Option.some.injEq,
      Option.map_eq_some_iff, bytesAhead] at found
    obtain ⟨i, index, rfl⟩ := found
    have inside := (List.findIdx?_eq_some_iff_findIdx_eq.1 index).1
    rw [List.length_drop] at inside
    omega
  · cases found

theorem lt_scanName {scanner after : Scanner} {name : Text}
    (success : scanner.scanName = some (some name, after)) :
    after.text = scanner.text ∧ scanner.position < after.position := by
  unfold scanName at success
  split at success
  · rw [Option.bind_eq_bind, Option.bind_eq_some_iff] at success
    obtain ⟨found, _, same⟩ := success
    cases same
    exact ⟨rfl, position_le_skipWhile isNameByte (scanner.advance 1)⟩
  · cases success

theorem le_scanQuoted {scanner after : Scanner} {name : Text} {attr : Attribute}
    (success : scanner.scanQuoted name = some (.ok attr, after)) :
    after.text = scanner.text ∧ scanner.position ≤ after.position := by
  unfold scanQuoted at success
  rw [Option.bind_eq_bind, Option.bind_eq_some_iff] at success
  obtain ⟨place?, sought, success⟩ := success
  cases place? with
  | none => cases success
  | some last =>
    dsimp only at success
    rw [Option.bind_eq_bind, Option.bind_eq_some_iff] at success
    obtain ⟨value, _, same⟩ := success
    cases same
    exact ⟨rfl, Nat.le_succ_of_le (le_seek? sought).1⟩

theorem le_scanValue {scanner after : Scanner} {name : Text} {attr : Attribute}
    (success : scanner.scanValue name = some (.ok attr, after)) :
    after.text = scanner.text ∧ scanner.position ≤ after.position := by
  unfold scanValue at success
  dsimp only at success
  split at success
  · split at success
    · obtain ⟨text, position⟩ := le_scanQuoted success
      have skipped := position_le_skipWhile isSpaceByte (scanner.advance 1)
      refine ⟨text, ?_⟩
      simp only [advance, skipWhile, skipSpace] at position skipped ⊢
      omega
    · cases success
  · cases success

/-- An attribute takes at least one byte. -/
theorem lt_scanAttribute {scanner after : Scanner} {attr : Attribute}
    (success : scanner.scanAttribute = some (.ok attr, after)) :
    after.text = scanner.text ∧ scanner.position < after.position := by
  unfold scanAttribute at success
  rw [Option.bind_eq_bind, Option.bind_eq_some_iff] at success
  obtain ⟨⟨name?, here⟩, named, success⟩ := success
  cases name? with
  | none => cases success
  | some name =>
    obtain ⟨sameText, further⟩ := lt_scanName named
    obtain ⟨text, position⟩ := le_scanValue success
    have skipped := position_le_skipWhile isSpaceByte here
    exact ⟨text.trans sameText, Nat.lt_of_lt_of_le further (Nat.le_trans skipped position)⟩

/-- Reads the attributes of a start tag and its end; the flag tells whether it closes itself. -/
def scanTagEnd (scanner : Scanner) :
    Option (Except MarkupProblem (List Attribute × Bool) × Scanner) :=
  let here := scanner.skipSpace
  if here.sees 0 '>' then some (.ok ([], false), here.advance 1)
  else if here.sees 0 '/' && here.sees 1 '>' then some (.ok ([], true), here.advance 2)
  else if _atEnd : here.isAtEnd then some (.error .startTagUnclosed, here)
  else
    match _taken : here.scanAttribute with
    | none => none
    | some (.error problem, found) => some (.error problem, found)
    | some (.ok attr, after) => do
      let (content, last) ← after.scanTagEnd
      return (content.map fun (attributes, closed) => (attr :: attributes, closed), last)
termination_by Text.byteLength scanner.text - scanner.position
decreasing_by
  have ahead : here.position < Text.byteLength here.text := by simpa [isAtEnd] using _atEnd
  have start : scanner.position ≤ here.position := position_le_skipWhile isSpaceByte scanner
  obtain ⟨sameText, onward⟩ := lt_scanAttribute _taken
  rw [sameText, show scanner.text = here.text from rfl]
  omega

theorem scanTagEnd_eq (scanner : Scanner) :
    scanner.scanTagEnd =
      let here := scanner.skipSpace
      if here.sees 0 '>' then some (.ok ([], false), here.advance 1)
      else if here.sees 0 '/' && here.sees 1 '>' then some (.ok ([], true), here.advance 2)
      else if here.isAtEnd then some (.error .startTagUnclosed, here)
      else
        match here.scanAttribute with
        | none => none
        | some (.error problem, found) => some (.error problem, found)
        | some (.ok attr, after) => after.scanTagEnd.map fun (content, last) =>
          (content.map fun (attributes, closed) => (attr :: attributes, closed), last) := by
  rw [scanTagEnd]
  dsimp only
  split
  · rfl
  · split
    · rfl
    · split
      · rfl
      · split
        · rename_i taken
          rw [taken]
        · rename_i taken
          rw [taken]
        · rename_i after taken
          rw [taken]
          dsimp only
          cases after.scanTagEnd <;> rfl

end Scanner

theorem any_head?_iff {c : Char} {text : Text} :
    text.head?.any (· == c) = true ↔ ∃ rest, text = c :: rest := by
  cases text with
  | nil => simp
  | cons d rest => simp

theorem readName?_eq (reader : Reader) :
    reader.readName? = if reader.rest.head?.any isNameStart then
      some (reader.rest.takeWhile isNameChar, reader.skipWhile isNameChar) else none := by
  rw [Reader.readName?]
  cases reader.rest <;> rfl

def readQuoted (name : Text) (atValue : Reader) : Reading Attribute :=
  match Text.cutAt? '"' atValue.rest with
  | some (value, rest) => .ok (⟨name, value⟩, ⟨atValue.offset + Text.byteLength value + 1, rest⟩)
  | none => .error (.attributeValueUnclosed, atValue)

/-- The rest of an attribute behind its name and the space that follows. -/
def readValue (name : Text) (atEquals : Reader) : Reading Attribute :=
  if atEquals.rest.head?.any (· == '=') then
    let atQuote := atEquals.skipChar.skipSpace
    if atQuote.rest.head?.any (· == '"') then readQuoted name atQuote.skipChar
    else .error (.attributeValueUnquoted, atQuote)
  else .error (.attributeValueMissing, atEquals)

theorem readAttribute_eq (reader : Reader) :
    readAttribute reader = match reader.readName? with
      | none => .error (.attributeNameExpected, reader)
      | some (name, afterName) => readValue name afterName.skipSpace := by
  rw [readAttribute]
  cases reader.readName? with
  | none => rfl
  | some read =>
    dsimp only
    rw [readValue]
    split
    · rename_i equals
      rw [if_pos (any_head?_iff.2 ⟨_, equals⟩)]
      dsimp only
      split
      · rename_i quote
        refine Eq.trans ?_ (if_pos (any_head?_iff.2 ⟨_, quote⟩)).symm
        unfold readQuoted
        cases Text.cutAt? '"' _ <;> rfl
      · rename_i other
        rw [if_neg fun next => (any_head?_iff.1 next).elim other]
    · rename_i other
      rw [if_neg fun next => (any_head?_iff.1 next).elim other]

theorem isNameStart_of_beyond {c : Char} (beyond : 0x80 ≤ c.toNat) : isNameStart c = true := by
  simp [isNameStart, beyond]

theorem coarse_isSpace : Text.Coarse isSpace := by
  intro c d beyond other
  rw [isSpace_false_of_isNameStart (isNameStart_of_beyond beyond),
    isSpace_false_of_isNameStart (isNameStart_of_beyond other)]

theorem coarse_isNameStart : Text.Coarse isNameStart := fun c d beyond other => by
  rw [isNameStart_of_beyond beyond, isNameStart_of_beyond other]

theorem coarse_isNameChar : Text.Coarse isNameChar := fun c d beyond other => by
  rw [isNameChar_of_isNameStart (isNameStart_of_beyond beyond),
    isNameChar_of_isNameStart (isNameStart_of_beyond other)]

/-- A scanner at the place of a reader. -/
def Reader.over (text : Text) (reader : Reader) : Scanner := ⟨text, reader.offset⟩

theorem reaches_ofText_iff {text : Text} {reader : Reader} :
    (Reader.ofText text).Reaches reader ↔
      ∃ before, text = before ++ reader.rest ∧ reader.offset = Text.byteLength before := by
  simp [Reader.Reaches, Reader.ofText]

/-- What is read of a tag, with a scanner for the place that was reached. -/
def overReading {α : Type} (text : Text) : Reading α → Except MarkupProblem α × Scanner
  | .ok (value, after) => (.ok value, after.over text)
  | .error (problem, found) => (.error problem, found.over text)

section

variable {text : Text} {reader : Reader} (within : (Reader.ofText text).Reaches reader)
include within

theorem isBoundary_offset : Text.isBoundary reader.offset text = true := by
  obtain ⟨before, rfl, offset⟩ := reaches_ofText_iff.1 within
  rw [offset]
  exact Text.isBoundary_append before reader.rest

theorem bytesAhead_over : (reader.over text).bytesAhead = Text.bytes reader.rest := by
  obtain ⟨before, rfl, offset⟩ := reaches_ofText_iff.1 within
  rw [Reader.over, Scanner.bytesAhead, offset, Text.drop_bytes]

theorem bytesAhead?_over : (reader.over text).bytesAhead? = some (Text.bytes reader.rest) := by
  rw [← bytesAhead_over within]
  exact if_pos (isBoundary_offset within)

theorem slice?_over {passed rest : Text} (whole : reader.rest = passed ++ rest) (position : Nat) :
    (Scanner.mk text position).slice? reader.offset (reader.offset + Text.byteLength passed)
      = some passed := by
  have after : (Reader.ofText text).Reaches
      ⟨reader.offset + Text.byteLength passed, rest⟩ := within.trans ⟨passed, whole, rfl⟩
  have cut : Text.takeBytes (reader.offset + Text.byteLength passed - reader.offset)
      (Text.dropBytes reader.offset text) = passed := by
    obtain ⟨before, rfl, offset⟩ := reaches_ofText_iff.1 within
    rw [offset, Text.dropBytes_append, Nat.add_sub_cancel_left, whole,
      takeBytes_append (Nat.le_refl _), Nat.sub_self, Text.takeBytes_zero, List.append_nil]
  rw [Scanner.slice?, Scanner.slice, cut]
  exact if_pos ⟨Nat.le_add_right _ _, isBoundary_offset within, isBoundary_offset after⟩

theorem remaining?_over : (reader.over text).remaining? = some reader.rest := by
  have sum := within.sum_eq
  have cut := slice?_over within (List.append_nil reader.rest).symm reader.offset
  rw [sum, show (Reader.ofText text).offset = 0 from rfl, Nat.zero_add] at cut
  exact cut

theorem isAtEnd_over : (reader.over text).isAtEnd = reader.rest.isEmpty := by
  have sum : reader.offset + Text.byteLength reader.rest = 0 + Text.byteLength text := within.sum_eq
  rw [Scanner.isAtEnd, Reader.over, Bool.eq_iff_iff, decide_eq_true_eq,
    List.isEmpty_iff_length_eq_zero]
  have length := Text.length_le_byteLength reader.rest
  constructor
  · intro atEnd
    dsimp only at atEnd
    omega
  · intro empty
    rw [List.eq_nil_of_length_eq_zero empty, Text.byteLength] at sum
    dsimp only
    omega

theorem peek?_over : (reader.over text).peek? 0 = (Text.bytes reader.rest).head? := by
  rw [Scanner.peek?, bytesAhead_over within, List.head?_eq_getElem?]

theorem peek?_behind {c : Char} (ascii : c.toNat < 0x80) {rest : Text}
    (whole : reader.rest = c :: rest) :
    (reader.over text).peek? 1 = (Text.bytes rest).head? := by
  rw [Scanner.peek?, bytesAhead_over within, whole, Text.bytes_cons, Text.charBytes_of_ascii ascii,
    List.singleton_append, List.getElem?_cons_succ, List.head?_eq_getElem?]

theorem skipWhile_over {kind : Char → Bool} (coarse : Text.Coarse kind) :
    (reader.over text).skipWhile (Text.byteKind kind) = (reader.skipWhile kind).over text := by
  rw [Scanner.skipWhile, bytesAhead_over within, Text.takeWhile_bytes coarse, Text.length_bytes]
  rfl

theorem skipSpace_over : (reader.over text).skipSpace = reader.skipSpace.over text :=
  skipWhile_over within coarse_isSpace

theorem sees_over {c : Char} (ascii : c.toNat < 0x80) :
    (reader.over text).sees 0 c = reader.rest.head?.any (· == c) := by
  rw [Scanner.sees, peek?_over within, ← Text.any_head?_bytes (Text.coarse_eq ascii),
    Text.byteKind_eq ascii]
  cases (Text.bytes reader.rest).head? <;> rfl

theorem seesName_over : (reader.over text).seesName 0 = reader.rest.head?.any isNameStart := by
  rw [Scanner.seesName, peek?_over within]
  exact Text.any_head?_bytes coarse_isNameStart reader.rest

theorem sees_behind {c d : Char} (ascii : c.toNat < 0x80) (front : d.toNat < 0x80) {rest : Text}
    (whole : reader.rest = d :: rest) :
    (reader.over text).sees 1 c = rest.head?.any (· == c) := by
  rw [Scanner.sees, peek?_behind within front whole, ← Text.any_head?_bytes (Text.coarse_eq ascii),
    Text.byteKind_eq ascii]
  cases (Text.bytes rest).head? <;> rfl

theorem seesName_behind {d : Char} (front : d.toNat < 0x80) {rest : Text}
    (whole : reader.rest = d :: rest) :
    (reader.over text).seesName 1 = rest.head?.any isNameStart := by
  rw [Scanner.seesName, peek?_behind within front whole]
  exact Text.any_head?_bytes coarse_isNameStart rest

omit within in
theorem advance_over {c : Char} (ascii : c.toNat < 0x80) {rest : Text}
    (whole : reader.rest = c :: rest) :
    (reader.over text).advance 1 = reader.skipChar.over text := by
  have width : Text.width c = 1 := if_pos ascii
  rw [Reader.skipChar, whole]
  exact congrArg (fun n => Scanner.mk text (reader.offset + n)) width.symm

theorem seek?_over {c : Char} (ascii : c.toNat < 0x80) :
    (reader.over text).seek? c = some ((Text.cutAt? c reader.rest).map fun parts =>
      reader.offset + Text.byteLength parts.1) := by
  rw [Scanner.seek?, bytesAhead?_over within]
  show some (Option.map _ _) = _
  rw [Text.findIdx?_bytes ascii, Option.map_map]
  rfl

theorem seesEndTag?_over :
    (reader.over text).seesEndTag? = some (TokenStream.beginsEndTag reader.rest) := by
  have begins : ['<', '/'].isPrefixOf reader.rest = TokenStream.beginsEndTag reader.rest := by
    unfold TokenStream.beginsEndTag
    split
    · rename_i whole
      rw [whole]
      rfl
    · rename_i other
      rw [Bool.eq_false_iff, ne_eq, List.isPrefixOf_iff_prefix]
      rintro ⟨rest, whole⟩
      exact other rest whole.symm
  have ascii : ∀ c ∈ ['<', '/'], c.toNat < 0x80 := by simp
  rw [Scanner.seesEndTag?, bytesAhead?_over within, ← begins, ← Text.isPrefixOf_bytes ascii]
  rfl

/-- The place in a text that ends with the window. -/
theorem reaches_window (limit : Nat) :
    (Reader.ofText (Text.takeBytes (reader.offset + limit) text)).Reaches
      (reader.window limit) := by
  obtain ⟨before, rfl, offset⟩ := reaches_ofText_iff.1 within
  refine reaches_ofText_iff.2 ⟨before, ?_, offset⟩
  rw [offset, takeBytes_append (Nat.le_add_right _ _), Nat.add_sub_cancel_left]
  rfl

omit within in
theorem bounded?_over (limit : Nat) :
    (reader.over text).bounded? limit
      = some ((reader.window limit).over (Text.takeBytes (reader.offset + limit) text)) := by
  have start : (Reader.ofText text).Reaches (Reader.ofText text) := .refl _
  have last := Text.boundaryUpTo_eq text (min (reader.offset + limit) (Text.byteLength text))
  rw [Text.takeBytes_min] at last
  obtain ⟨beyond, whole⟩ := takeBytes_prefix (reader.offset + limit) text
  have cut := slice?_over start whole.symm reader.offset
  rw [show (Reader.ofText text).offset = 0 from rfl, Nat.zero_add, ← last] at cut
  rw [Scanner.bounded?]
  exact (congrArg (Option.bind · _) cut).trans rfl

theorem scanName_over :
    (reader.over text).scanName = some (match reader.readName? with
      | some (name, after) => (some name, after.over text)
      | none => (none, reader.over text)) := by
  rw [Scanner.scanName, readName?_eq, ← seesName_over within]
  cases begins : (reader.over text).seesName 0 with
  | false => rfl
  | true =>
    -- Behind its first byte the scanner may stand inside a character. Nothing is taken from there:
    -- it goes on to the end of the name, and every byte of such a character belongs to the name.
    have goesOn : ((reader.over text).peek? 0).any isNameByte = true := by
      obtain ⟨b, seen, first⟩ := (Option.any_eq_true ..).1 begins
      exact (Option.any_eq_true ..).2 ⟨b, seen, isNameChar_of_isNameStart first⟩
    have behind : ((reader.over text).advance 1).skipWhile isNameByte
        = (reader.skipWhile isNameChar).over text :=
      (Scanner.skipWhile_advance goesOn).trans (skipWhile_over within coarse_isNameChar)
    have parts : reader.rest.takeWhile isNameChar ++ reader.rest.dropWhile isNameChar
        = reader.rest := List.takeWhile_append_dropWhile
    have cut := slice?_over within parts.symm reader.offset
    rw [if_pos rfl, if_pos rfl, behind]
    exact (congrArg (Option.bind · _) cut).trans rfl

theorem exists_of_sees {c : Char} (ascii : c.toNat < 0x80)
    (seen : (reader.over text).sees 0 c = true) : ∃ rest, reader.rest = c :: rest :=
  any_head?_iff.1 ((sees_over within ascii).symm.trans seen)

theorem scanQuoted_over (name : Text) :
    (reader.over text).scanQuoted name = some (overReading text (readQuoted name reader)) := by
  rw [Scanner.scanQuoted, seek?_over within (by decide), readQuoted]
  cases cut : Text.cutAt? '"' reader.rest with
  | none => rfl
  | some parts =>
    obtain ⟨value, rest⟩ := parts
    have sliced := slice?_over within (cutAt?_eq_some cut).2 reader.offset
    exact (congrArg (Option.bind · _) sliced).trans rfl

theorem scanValue_over (name : Text) :
    (reader.over text).scanValue name = some (overReading text (readValue name reader)) := by
  rw [Scanner.scanValue, readValue, ← sees_over within (by decide)]
  cases equals : (reader.over text).sees 0 '=' with
  | false => rfl
  | true =>
    obtain ⟨rest, whole⟩ := exists_of_sees within (by decide) equals
    have behind := within.trans (reaches_skipChar reader)
    have quoted := behind.trans (reaches_skipSpace reader.skipChar)
    rw [if_pos rfl, if_pos rfl, advance_over (by decide) whole, skipSpace_over behind]
    dsimp only
    rw [← sees_over quoted (by decide)]
    cases quote : (reader.skipChar.skipSpace.over text).sees 0 '"' with
    | false => rfl
    | true =>
      obtain ⟨rest, whole⟩ := exists_of_sees quoted (by decide) quote
      rw [if_pos rfl, if_pos rfl, advance_over (by decide) whole]
      exact scanQuoted_over (quoted.trans (reaches_skipChar _)) name

theorem scanAttribute_over :
    (reader.over text).scanAttribute = some (overReading text (readAttribute reader)) := by
  rw [Scanner.scanAttribute, scanName_over within, readAttribute_eq]
  cases named : reader.readName? with
  | none => rfl
  | some read =>
    obtain ⟨name, after⟩ := read
    have behind := within.trans (reaches_readName? named)
    show Scanner.scanValue name (after.over text).skipSpace = _
    rw [skipSpace_over behind, scanValue_over (behind.trans (reaches_skipSpace after))]

theorem sees_eq_false {c : Char} (ascii : c.toNat < 0x80)
    (other : ∀ rest, reader.rest ≠ c :: rest) : (reader.over text).sees 0 c = false :=
  Bool.eq_false_iff.2 fun seen => (exists_of_sees within ascii seen).elim other

theorem sees_eq_true {c : Char} (ascii : c.toNat < 0x80) {rest : Text}
    (whole : reader.rest = c :: rest) : (reader.over text).sees 0 c = true :=
  (sees_over within ascii).trans (any_head?_iff.2 ⟨rest, whole⟩)

theorem seesSlash_iff :
    ((reader.over text).sees 0 '/' && (reader.over text).sees 1 '>') = true ↔
      ∃ rest, reader.rest = '/' :: '>' :: rest := by
  rw [Bool.and_eq_true]
  constructor
  · rintro ⟨slash, bracket⟩
    obtain ⟨behind, whole⟩ := exists_of_sees within (by decide) slash
    rw [sees_behind within (by decide) (by decide) whole, any_head?_iff] at bracket
    obtain ⟨rest, same⟩ := bracket
    exact ⟨rest, by rw [whole, same]⟩
  · rintro ⟨rest, whole⟩
    refine ⟨sees_eq_true within (by decide) whole, ?_⟩
    rw [sees_behind within (by decide) (by decide) whole, any_head?_iff]
    exact ⟨rest, rfl⟩

/-- What is neither the end of the tag nor that of the text is an attribute. -/
theorem scanTagEnd_attribute (filled : reader.skipSpace.rest ≠ [])
    (noEnd : ∀ rest, reader.skipSpace.rest ≠ '>' :: rest)
    (noSlash : ∀ rest, reader.skipSpace.rest ≠ '/' :: '>' :: rest) :
    (reader.over text).scanTagEnd = match readAttribute reader.skipSpace with
      | .error (problem, found) => some (.error problem, found.over text)
      | .ok (attr, after) => (after.over text).scanTagEnd.map fun (content, last) =>
        (content.map fun (attributes, closed) => (attr :: attributes, closed), last) := by
  have spaced := within.trans (reaches_skipSpace reader)
  have ahead : ((reader.skipSpace).over text).isAtEnd = false := by
    rw [isAtEnd_over spaced, List.isEmpty_eq_false_iff]
    exact filled
  rw [Scanner.scanTagEnd_eq, skipSpace_over within]
  dsimp only
  rw [sees_eq_false spaced (by decide) noEnd, if_neg Bool.false_ne_true,
    if_neg fun slash => ((seesSlash_iff spaced).1 slash).elim noSlash, ahead,
    if_neg Bool.false_ne_true, scanAttribute_over spaced]
  cases readAttribute reader.skipSpace <;> rfl

omit within in
theorem scanTagEnd_over (within : (Reader.ofText text).Reaches reader) :
    (reader.over text).scanTagEnd = some (overReading text (readTagEnd reader)) := by
  -- Along the attributes that are read. Behind each of them lies a place in the text again.
  fun_induction readTagEnd reader with
  | case1 reader here whole =>
    have spaced : (Reader.ofText text).Reaches here := within.trans (reaches_skipSpace reader)
    have nothing : ∀ (c : Char) (rest : Text), here.rest ≠ c :: rest := by simp [whole]
    have atEnd : (here.over text).isAtEnd = true := by
      rw [isAtEnd_over spaced, whole, List.isEmpty_nil]
    rw [Scanner.scanTagEnd_eq, skipSpace_over within]
    dsimp only
    rw [sees_eq_false spaced (by decide) (nothing '>'), if_neg Bool.false_ne_true,
      sees_eq_false spaced (by decide) (nothing '/'), Bool.false_and, if_neg Bool.false_ne_true,
      if_pos atEnd]
    rfl
  | case2 reader here =>
    rename_i whole
    have spaced : (Reader.ofText text).Reaches here := within.trans (reaches_skipSpace reader)
    rw [Scanner.scanTagEnd_eq, skipSpace_over within]
    dsimp only
    rw [if_pos (sees_eq_true spaced (by decide) whole), advance_over (by decide) whole]
    rfl
  | case3 reader here rest =>
    rename_i whole
    have spaced : (Reader.ofText text).Reaches here := within.trans (reaches_skipSpace reader)
    have noEnd : ∀ rest, here.rest ≠ '>' :: rest := by simp [whole]
    have bracket : here.skipChar.rest = '>' :: rest := by rw [Reader.skipChar, whole]
    have twice : (here.over text).advance 2 = here.skipChar.skipChar.over text := by
      rw [← advance_over (by decide) bracket, ← advance_over (by decide) whole]
      rfl
    rw [Scanner.scanTagEnd_eq, skipSpace_over within]
    dsimp only
    rw [sees_eq_false spaced (by decide) noEnd, if_neg Bool.false_ne_true,
      if_pos ((seesSlash_iff spaced).2 ⟨rest, whole⟩), twice]
    rfl
  | case4 reader here problem failed filled noEnd noSlash =>
    rw [scanTagEnd_attribute within filled noEnd noSlash, failed]
    rfl
  | case5 reader here first after taken problem failed filled noEnd noSlash ih =>
    have behind := within.trans ((reaches_skipSpace reader).trans (reaches_readAttribute taken))
    rw [scanTagEnd_attribute within filled noEnd noSlash, taken]
    dsimp only
    rw [ih behind, failed]
    rfl
  | case6 reader here first after taken others closed last read filled noEnd noSlash ih =>
    have behind := within.trans ((reaches_skipSpace reader).trans (reaches_readAttribute taken))
    rw [scanTagEnd_attribute within filled noEnd noSlash, taken]
    dsimp only
    rw [ih behind, read]
    rfl

end

namespace Scanner

/-- The end of the window is moved back to a boundary, so it is always there. -/
theorem bounded?_eq_window (scanner : Scanner) (limit : Nat) :
    scanner.bounded? limit = some (scanner.window limit) := by
  show (scanner.reader.over scanner.text).bounded? limit = _
  exact bounded?_over limit

section

variable {scanner : Scanner} (between : Text.isBoundary scanner.position scanner.text = true)
include between

theorem seek?_eq_find? (c : Char) : scanner.seek? c = some (scanner.find? c.toNat.toUInt8) := by
  rw [seek?, bytesAhead?, if_pos between]
  rfl

theorem seesEndTag?_eq_startsWith :
    scanner.seesEndTag?
      = some (scanner.startsWith ['<'.toNat.toUInt8, '/'.toNat.toUInt8]) := by
  rw [seesEndTag?, bytesAhead?, if_pos between]
  rfl

/-- Between two characters a scanner stands where its reader does. -/
theorem reaches_reader : (Reader.ofText scanner.text).Reaches scanner.reader := by
  obtain ⟨before, after, whole, length⟩ := Text.exists_of_isBoundary between
  refine reaches_ofText_iff.2 ⟨before, ?_, length⟩
  rw [reader, remaining, length, whole, Text.dropBytes_append]

theorem scanName_eq_readName? : scanner.scanName = some scanner.readName? := by
  have scanned := scanName_over (reaches_reader between)
  rw [readName?]
  cases named : scanner.reader.readName? with
  | none =>
    rw [named] at scanned
    exact scanned
  | some read =>
    rw [named] at scanned
    exact scanned

theorem scanAttribute_eq_readAttribute : scanner.scanAttribute = some scanner.readAttribute := by
  have scanned := scanAttribute_over (reaches_reader between)
  rw [readAttribute]
  cases attempt : Markup.readAttribute scanner.reader with
  | ok read =>
    rw [attempt] at scanned
    exact scanned
  | error failure =>
    rw [attempt] at scanned
    exact scanned

end

end Scanner

end MailMerge.Markup
