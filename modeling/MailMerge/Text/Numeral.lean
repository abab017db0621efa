import MailMerge.Text.Basic

set_option autoImplicit false

namespace MailMerge.Text

def ofNat (n : Nat) : Text := Nat.toDigits 10 n

/-- The decimal numeral of an integer, with a sign only when it is negative. -/
def ofInt : Int → Text
  | .ofNat n => ofNat n
  | .negSucc n => '-' :: ofNat (n + 1)

def digitValue (c : Char) : Nat := c.toNat - '0'.toNat

/-- The number that a row of digits spells when it continues the numeral of `high`. -/
def digitsValue (high : Nat) : Text → Nat
  | [] => high
  | c :: rest => digitsValue (10 * high + digitValue c) rest

/-- The number spelt by one or more ASCII digits and nothing else. -/
def toNat? (text : Text) : Option Nat :=
  if text ≠ [] ∧ text.all Char.isDigit then some (digitsValue 0 text) else none

def hexValue? (c : Char) : Option Nat :=
  if c.isDigit then some (c.toNat - '0'.toNat)
  else if 'a' ≤ c ∧ c ≤ 'f' then some (c.toNat - 'a'.toNat + 10)
  else if 'A' ≤ c ∧ c ≤ 'F' then some (c.toNat - 'A'.toNat + 10)
  else none

def hexNumber? (digits : Text) : Option Nat :=
  digits.foldlM (fun high c => (hexValue? c).map (16 * high + ·)) 0

/-- The largest number of a 64-bit word. -/
def maxWord : Nat := 18446744073709551615

/-- A 64-bit count: digits, perhaps after one plus sign, for a number that fits the word. -/
def toWord? (text : Text) : Option Nat :=
  let digits := match text with
    | '+' :: rest => rest
    | other => other
  (toNat? digits).filter (· ≤ maxWord)

end MailMerge.Text
