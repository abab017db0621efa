set_option autoImplicit false

namespace MailMerge

/-- A text is the list of its code points. -/
abbrev Text := List Char

namespace Text

def width (c : Char) : Nat :=
  if c.toNat < 0x80 then 1
  else if c.toNat < 0x800 then 2
  else if c.toNat < 0x10000 then 3
  else 4

def byteLength : Text → Nat
  | [] => 0
  | c :: rest => width c + byteLength rest

def charBytes (c : Char) : List UInt8 :=
  let n := c.toNat
  if n < 0x80 then [n.toUInt8]
  else if n < 0x800 then [(0xC0 + n / 64).toUInt8, (0x80 + n % 64).toUInt8]
  else if n < 0x10000 then
    [(0xE0 + n / 4096).toUInt8, (0x80 + n / 64 % 64).toUInt8, (0x80 + n % 64).toUInt8]
  else
    [(0xF0 + n / 262144).toUInt8, (0x80 + n / 4096 % 64).toUInt8, (0x80 + n / 64 % 64).toUInt8,
      (0x80 + n % 64).toUInt8]

def bytes (text : Text) : List UInt8 := text.flatMap charBytes

/-- The longest beginning of a text that takes at most `n` bytes. -/
def takeBytes (n : Nat) : Text → Text
  | [] => []
  | c :: rest => if width c ≤ n then c :: takeBytes (n - width c) rest else []

/-- A text without its first `n` bytes. -/
def dropBytes (n : Nat) : Text → Text
  | [] => []
  | c :: rest => if n = 0 then c :: rest else dropBytes (n - width c) rest

/-- The pieces of a text between the occurrences of a character. There is always one more piece
than there are occurrences. -/
def splitAt (separator : Char) : Text → List Text
  | [] => [[]]
  | c :: rest =>
    if c = separator then [] :: splitAt separator rest
    else match splitAt separator rest with
      | piece :: pieces => (c :: piece) :: pieces
      | [] => [[c]]

/-- A text cut at the first occurrence of a character, which is dropped. -/
def cutAt? (separator : Char) : Text → Option (Text × Text)
  | [] => none
  | c :: rest =>
    if c = separator then some ([], rest)
    else (cutAt? separator rest).map fun (before, after) => (c :: before, after)

/-- Texts in the order of their code points, which is also the order of their UTF-8 bytes. -/
def precedes : Text → Text → Bool
  | _, [] => false
  | [], _ :: _ => true
  | a :: left, b :: right => a.toNat < b.toNat || (a == b && precedes left right)

/-- ASCII letters in lower case; all other characters stay. -/
def lowerAscii (text : Text) : Text := text.map Char.toLower

theorem width_pos (c : Char) : 0 < width c := by
  unfold width
  split <;> (try split) <;> (try split) <;> omega

@[simp] theorem byteLength_append (first second : Text) :
    byteLength (first ++ second) = byteLength first + byteLength second := by
  induction first with
  | nil => simp [byteLength]
  | cons c rest ih => simp [byteLength, ih, Nat.add_assoc]

theorem length_le_byteLength (text : Text) : text.length ≤ byteLength text := by
  induction text with
  | nil => simp [byteLength]
  | cons c rest ih =>
    have := width_pos c
    simp only [List.length_cons, byteLength]
    omega

end Text

end MailMerge
