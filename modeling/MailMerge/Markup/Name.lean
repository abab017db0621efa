import MailMerge.Text.Basic

/-!
The characters of names and the space between the parts of a tag. A character outside ASCII may
stand anywhere in a name, so the classes are also classes of bytes: every byte of such a character
is a name byte.
-/

set_option autoImplicit false

namespace MailMerge.Markup

def isSpace (c : Char) : Bool :=
  c = ' ' || c = '\t' || c = '\n' || c = '\r'

/-- A letter, an underscore, a colon or any character outside ASCII begins a name. -/
def isNameStart (c : Char) : Bool :=
  c.isAlpha || c = '_' || c = ':' || 0x80 ≤ c.toNat

/-- A name goes on with the characters that begin one, digits, hyphens and periods. -/
def isNameChar (c : Char) : Bool :=
  isNameStart c || c.isDigit || c = '-' || c = '.'

def isSpaceByte (b : UInt8) : Bool := isSpace (Char.ofNat b.toNat)

def isNameStartByte (b : UInt8) : Bool := isNameStart (Char.ofNat b.toNat)

def isNameByte (b : UInt8) : Bool := isNameChar (Char.ofNat b.toNat)

end MailMerge.Markup
