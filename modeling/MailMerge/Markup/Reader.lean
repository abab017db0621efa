import MailMerge.Markup.Name

set_option autoImplicit false

namespace MailMerge.Markup

structure Reader where
  /-- The number of bytes in front of the place. -/
  offset : Nat
  /-- What has not been read. -/
  rest : Text
  deriving Repr, DecidableEq

namespace Reader

def ofText (text : Text) : Reader := ⟨0, text⟩

def skipChar (reader : Reader) : Reader :=
  match reader.rest with
  | [] => reader
  | c :: rest => ⟨reader.offset + Text.width c, rest⟩

def skipWhile (keep : Char → Bool) (reader : Reader) : Reader :=
  ⟨reader.offset + Text.byteLength (reader.rest.takeWhile keep), reader.rest.dropWhile keep⟩

def skipSpace (reader : Reader) : Reader := reader.skipWhile isSpace

/-- The same place in a text that ends at most `n` bytes further. A character that would be cut in
two is left out. -/
def window (n : Nat) (reader : Reader) : Reader :=
  ⟨reader.offset, Text.takeBytes n reader.rest⟩

/-- The longest name from here on, and the place behind it. -/
def readName? (reader : Reader) : Option (Text × Reader) :=
  match reader.rest with
  | [] => none
  | c :: _ =>
    if isNameStart c then some (reader.rest.takeWhile isNameChar, reader.skipWhile isNameChar)
    else none

end Reader

theorem isNameChar_of_isNameStart {c : Char} (begins : isNameStart c = true) :
    isNameChar c = true := by
  simp [isNameChar, begins]

theorem length_skipWhile_le (keep : Char → Bool) (reader : Reader) :
    (reader.skipWhile keep).rest.length ≤ reader.rest.length :=
  (List.dropWhile_sublist keep).length_le

theorem length_skipSpace_le (reader : Reader) :
    reader.skipSpace.rest.length ≤ reader.rest.length :=
  length_skipWhile_le isSpace reader

theorem length_skipChar_le (reader : Reader) :
    reader.skipChar.rest.length ≤ reader.rest.length := by
  unfold Reader.skipChar
  split <;> simp_all

/-- A name takes at least one character. -/
theorem length_readName_lt {reader after : Reader} {name : Text}
    (success : reader.readName? = some (name, after)) :
    after.rest.length < reader.rest.length := by
  unfold Reader.readName? at success
  split at success
  · simp at success
  · rename_i c rest whole
    split at success
    · rename_i begins
      simp only [Option.some.injEq, Prod.mk.injEq] at success
      rw [← success.2, whole]
      simp only [Reader.skipWhile, whole, List.dropWhile_cons, isNameChar_of_isNameStart begins,
        ↓reduceIte, List.length_cons]
      exact Nat.lt_succ_of_le (List.dropWhile_sublist isNameChar).length_le
    · simp at success

end MailMerge.Markup
