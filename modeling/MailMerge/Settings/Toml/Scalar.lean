import MailMerge.Settings.Toml.Value
import MailMerge.Text.Taken

set_option autoImplicit false

namespace MailMerge.Settings.Toml

def isBlankChar (c : Char) : Bool := c = ' ' || c = '\t'

def skipBlanks (text : Text) : Text := text.dropWhile isBlankChar

/-- May a character stand in a comment or in a string as itself? Control characters may not, except
for the tab. -/
def isVisible (c : Char) : Bool := c = '\t' || (0x20 ≤ c.toNat && c ≠ '\x7f')

/-- Reads the end of a line. -/
def takeNewline? : Text → Option Text
  | '\n' :: rest => some rest
  | '\r' :: '\n' :: rest => some rest
  | _ => none

def skipComment (text : Text) : Text :=
  match text with
  | '#' :: rest => rest.dropWhile isVisible
  | _ => text

/-- The code point of a number, unless it is a surrogate or too large. -/
def charOfNumber? (n : Nat) : Option Char :=
  if n < 0xD800 ∨ (0xDFFF < n ∧ n < 0x110000) then some (Char.ofNat n) else none

def takeEscape? (text : Text) : Option (Taken Char text) :=
  match text with
  | [] => none
  | c :: rest =>
    let number (count : Nat) : Option (Taken Char (c :: rest)) :=
      (Text.takeHex? count rest).bind fun taken =>
        (charOfNumber? taken.value).bind fun value => Taken.ofRest? value taken.rest
    if c = 'u' then number 4
    else if c = 'U' then number 8
    else if c = 'b' then Taken.ofRest? '\x08' rest
    else if c = 't' then Taken.ofRest? '\t' rest
    else if c = 'n' then Taken.ofRest? '\n' rest
    else if c = 'f' then Taken.ofRest? '\x0c' rest
    else if c = 'r' then Taken.ofRest? '\r' rest
    else if c = '"' ∨ c = '\\' then Taken.ofRest? c rest
    else none

/-- Reads a string of one line behind its opening double quote. -/
def takeBasic? (text : Text) : Option (Text × Text) :=
  match text with
  | [] => none
  | c :: rest =>
    if c = '"' then some ([], rest)
    else if c = '\\' then
      match takeEscape? rest with
      | none => none
      | some escape =>
        have := escape.shorter
        (takeBasic? escape.rest).map fun (value, rest) => (escape.value :: value, rest)
    else if isVisible c then (takeBasic? rest).map fun (value, rest) => (c :: value, rest)
    else none
termination_by text.length

/-- Reads a string of one line behind its opening single quote. -/
def takeLiteral? (text : Text) : Option (Text × Text) :=
  let inside (c : Char) : Bool := c ≠ '\'' && isVisible c
  match text.dropWhile inside with
  | '\'' :: rest => some (text.takeWhile inside, rest)
  | _ => none

/-- The quotes in front of a text: how many of them belong to the string that they stand in, and
whether the others close it. Three or more close it, and up to two in front of the last three are
its own. -/
def splitQuotes (quote : Char) (text : Text) : Nat × Bool :=
  let count := (text.takeWhile (· = quote)).length
  if count < 3 then (count, false) else (min count 5 - 3, true)

/-- A text without the blanks and the ends of lines in front of it. -/
def skipBlankLines : Text → Text
  | '\r' :: '\n' :: rest => skipBlankLines rest
  | c :: rest => if isBlankChar c ∨ c = '\n' then skipBlankLines rest else c :: rest
  | [] => []

/-- Reads the space that a backslash at the end of a line swallows: the rest of the line and all
blank lines behind it. -/
def takeContinuation? (text : Text) : Option Text :=
  (takeNewline? (skipBlanks text)).map skipBlankLines

/-- Reads a string of several lines behind its opening quotes; a backslash escapes only if
`escapes`. -/
def takeLong? (quote : Char) (escapes : Bool) (text : Text) : Option (Text × Text) :=
  match text with
  | [] => none
  | c :: rest =>
    if c = quote then
      let (own, closes) := splitQuotes quote (c :: rest)
      if closes then some (List.replicate own quote, rest.drop (own + 2))
      else (takeLong? quote escapes rest).map fun (value, rest) => (c :: value, rest)
    else if escapes ∧ c = '\\' then
      match takeContinuation? rest with
      | some behind =>
        if _shorter : behind.length < rest.length then takeLong? quote escapes behind else none
      | none =>
        match takeEscape? rest with
        | none => none
        | some escape =>
          have := escape.shorter
          (takeLong? quote escapes escape.rest).map fun (value, rest) =>
            (escape.value :: value, rest)
    else if c = '\r' then
      match rest with
      | '\n' :: behind =>
        (takeLong? quote escapes behind).map fun (value, rest) => ('\n' :: value, rest)
      | _ => none
    else if c = '\n' ∨ isVisible c then
      (takeLong? quote escapes rest).map fun (value, rest) => (c :: value, rest)
    else none
termination_by text.length

/-- A text without the end of a line in front of it. -/
def skipFirstNewline (text : Text) : Text := (takeNewline? text).getD text

def takeString? : Text → Option (Text × Text)
  | '"' :: '"' :: '"' :: rest => takeLong? '"' true (skipFirstNewline rest)
  | '\'' :: '\'' :: '\'' :: rest => takeLong? '\'' false (skipFirstNewline rest)
  | '"' :: rest => takeBasic? rest
  | '\'' :: rest => takeLiteral? rest
  | _ => none

/-- The value of a digit in the bases up to sixteen. -/
def digitIn? (base : Nat) (c : Char) : Option Nat := (Text.hexValue? c).filter (· < base)

/-- Reads the digits behind a first one. An underscore may stand between two digits only. -/
def takeMoreDigits? (base : Nat) : Text → Option (Text × Text)
  | '_' :: c :: rest =>
    if (digitIn? base c).isSome then
      (takeMoreDigits? base rest).map fun (digits, rest) => (c :: digits, rest)
    else none
  | '_' :: [] => none
  | c :: rest =>
    if (digitIn? base c).isSome then
      (takeMoreDigits? base rest).map fun (digits, rest) => (c :: digits, rest)
    else some ([], c :: rest)
  | [] => some ([], [])

def takeDigits? (base : Nat) : Text → Option (Text × Text)
  | [] => none
  | c :: rest =>
    if (digitIn? base c).isSome then
      (takeMoreDigits? base rest).map fun (digits, rest) => (c :: digits, rest)
    else none

def numberIn (base : Nat) (digits : Text) : Nat :=
  digits.foldl (fun high c => base * high + (digitIn? base c).getD 0) 0

/-- An integer, if it fits a signed 64-bit word. -/
def integer? (value : Int) : Option Value :=
  if -9223372036854775808 ≤ value ∧ value ≤ 9223372036854775807 then some (.integer value)
  else none

def takeInBase? (base : Nat) (text : Text) : Option (Value × Text) :=
  (takeDigits? base text).bind fun (digits, rest) =>
    (integer? (numberIn base digits)).map (·, rest)

/-- The double nearest to `digits · 10 ^ exponent`. Exponents far outside the range of doubles give
infinity or zero at once. -/
def nearestDouble (digits : Text) (exponent : Int) : Float :=
  let value := Text.digitsValue 0 digits
  let leading : Int := (Nat.toDigits 10 value).length + exponent
  if value = 0 then 0.0
  else if 400 < leading then 1.0 / 0.0
  else if leading < -400 then 0.0
  else if exponent < 0 then Float.ofScientific value true exponent.natAbs
  else Float.ofScientific value false exponent.natAbs

/-- A float with a sign. Floats too large for a double are refused unless they are negative. -/
def float? (negative : Bool) (digits : Text) (exponent : Int) : Option Value :=
  let value := nearestDouble digits exponent
  if negative then some (.float (-value))
  else if value.isInf then none
  else some (.float value)

/-- Reads the exponent of a float, if one follows, and makes the float. -/
def takeExponent? (negative : Bool) (digits : Text) (places : Nat) (text : Text) :
    Option (Value × Text) :=
  match text with
  | c :: rest =>
    if c = 'e' ∨ c = 'E' then
      let (minus, unsigned) := match rest with
        | '+' :: tail => (false, tail)
        | '-' :: tail => (true, tail)
        | tail => (false, tail)
      (takeDigits? 10 unsigned).bind fun (exponent, rest) =>
        let shift : Int := Text.digitsValue 0 exponent
        (float? negative digits ((if minus then -shift else shift) - places)).map (·, rest)
    else (float? negative digits (-places)).map (·, text)
  | [] => (float? negative digits (-places)).map (·, [])

/-- Reads a decimal integer or a float behind its sign. Only a single zero may begin with a zero. -/
def takeDecimal? (negative : Bool) (text : Text) : Option (Value × Text) :=
  let integral := match text with
    | '0' :: rest => some (['0'], rest)
    | _ => takeDigits? 10 text
  integral.bind fun (digits, rest) =>
    match rest with
    | '.' :: tail =>
      (takeDigits? 10 tail).bind fun (fraction, rest) =>
        takeExponent? negative (digits ++ fraction) fraction.length rest
    | 'e' :: _ | 'E' :: _ => takeExponent? negative digits 0 rest
    | _ =>
      let value : Int := Text.digitsValue 0 digits
      (integer? (if negative then -value else value)).map (·, rest)

/-- Reads a decimal number, infinity or a float that is no number, behind its sign. -/
def takeSigned? (negative : Bool) : Text → Option (Value × Text)
  | 'i' :: 'n' :: 'f' :: rest =>
    some (.float (if negative then -1.0 / 0.0 else 1.0 / 0.0), rest)
  | 'n' :: 'a' :: 'n' :: rest => some (.float (0.0 / 0.0), rest)
  | text => takeDecimal? negative text

def takeNumber? (text : Text) : Option (Value × Text) :=
  if beginsDate text then
    (takeDate? text).map fun (date, rest) =>
      let (moment, rest) := takeMoment date rest
      (.moment moment, rest)
  else if beginsTime text then (takeTime? 23 text).map fun (time, rest) => (.moment time, rest)
  else match text with
    | '0' :: 'x' :: rest => takeInBase? 16 rest
    | '0' :: 'o' :: rest => takeInBase? 8 rest
    | '0' :: 'b' :: rest => takeInBase? 2 rest
    | '+' :: rest => takeSigned? false rest
    | '-' :: rest => takeSigned? true rest
    | _ => takeSigned? false text

def takeScalar? (text : Text) : Option (Value × Text) :=
  match text with
  | '"' :: _ | '\'' :: _ => (takeString? text).map fun (value, rest) => (.text value, rest)
  | 't' :: 'r' :: 'u' :: 'e' :: rest => some (.flag true, rest)
  | 'f' :: 'a' :: 'l' :: 's' :: 'e' :: rest => some (.flag false, rest)
  | _ => takeNumber? text

end MailMerge.Settings.Toml
