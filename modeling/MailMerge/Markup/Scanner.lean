import MailMerge.Markup.Tag

set_option autoImplicit false

namespace MailMerge.Markup

/-- A text and a position in it, in bytes. It may also lie behind the end or inside a character. -/
structure Scanner where
  text : Text
  position : Nat
  deriving Repr, DecidableEq

namespace Scanner

def ofText (text : Text) : Scanner := ⟨text, 0⟩

def bytesAhead (scanner : Scanner) : List UInt8 :=
  (Text.bytes scanner.text).drop scanner.position

def isAtEnd (scanner : Scanner) : Bool :=
  Text.byteLength scanner.text ≤ scanner.position

def remaining (scanner : Scanner) : Text := Text.dropBytes scanner.position scanner.text

def slice (first last : Nat) (scanner : Scanner) : Text :=
  Text.takeBytes (last - first) (Text.dropBytes first scanner.text)

/-- The same position in a text that ends at most `n` bytes further, at a character boundary. -/
def window (n : Nat) (scanner : Scanner) : Scanner :=
  { scanner with text := Text.takeBytes (scanner.position + n) scanner.text }

/-- The byte `k` bytes further. -/
def peek? (k : Nat) (scanner : Scanner) : Option UInt8 := scanner.bytesAhead[k]?

/-- The offset of the next occurrence of a byte. -/
def find? (byte : UInt8) (scanner : Scanner) : Option Nat :=
  (scanner.bytesAhead.findIdx? (· == byte)).map (scanner.position + ·)

def startsWith (bytes : List UInt8) (scanner : Scanner) : Bool :=
  bytes.isPrefixOf scanner.bytesAhead

def advance (n : Nat) (scanner : Scanner) : Scanner :=
  { scanner with position := scanner.position + n }

def skipSpace (scanner : Scanner) : Scanner :=
  scanner.advance (scanner.bytesAhead.takeWhile isSpaceByte).length

def reader (scanner : Scanner) : Reader := ⟨scanner.position, scanner.remaining⟩

def readName? (scanner : Scanner) : Option Text × Scanner :=
  match scanner.reader.readName? with
  | some (name, after) => (some name, { scanner with position := after.offset })
  | none => (none, scanner)

/-- Reads an attribute; after a problem the scanner stands where it was found. -/
def readAttribute (scanner : Scanner) : Except MarkupProblem Attribute × Scanner :=
  match Markup.readAttribute scanner.reader with
  | .ok (attr, after) => (.ok attr, { scanner with position := after.offset })
  | .error (problem, found) => (.error problem, { scanner with position := found.offset })

end Scanner

end MailMerge.Markup
