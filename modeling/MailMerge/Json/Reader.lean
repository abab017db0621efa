import MailMerge.Json.Value
import MailMerge.Text.Taken
import MailMerge.Text.Utf8

set_option autoImplicit false

namespace MailMerge.Json

def isSpace (c : Char) : Bool := c = ' ' || c = '\t' || c = '\n' || c = '\r'

def skipSpace (text : Text) : Text := text.dropWhile isSpace

theorem length_skipSpace_le (text : Text) : (skipSpace text).length ≤ text.length :=
  Text.length_dropWhile_le isSpace text

/-- A decimal while it is being read: the digits that fit a 64-bit word, and the power of ten that
they are to be multiplied by. -/
structure Decimal where
  significand : Nat
  exponent : Int

/-- Takes the digits of an integer into the significand while it fits a word. Any further digit only
raises the exponent. -/
def Decimal.takeInteger : Decimal → Text → Decimal
  | decimal, [] => decimal
  | decimal, c :: rest =>
    let next := 10 * decimal.significand + Text.digitValue c
    if decimal.exponent = 0 ∧ next ≤ Text.maxWord then takeInteger ⟨next, 0⟩ rest
    else takeInteger ⟨decimal.significand, decimal.exponent + 1⟩ rest

/-- Takes the digits of a fraction into the significand while it fits a word. The digits from the
first one that does not fit on are dropped. -/
def Decimal.takeFraction : Decimal → Text → Decimal
  | decimal, [] => decimal
  | decimal, c :: rest =>
    let next := 10 * decimal.significand + Text.digitValue c
    if next ≤ Text.maxWord then takeFraction ⟨next, decimal.exponent - 1⟩ rest else decimal

/-- The largest power of ten that is a double. -/
def largestPower : Int := 308

def powerOfTen (n : Nat) : Float := Float.ofScientific 1 false n

/-- A significand times a power of ten, rounded after each multiplication or division. Powers below
the smallest take several divisions, as many as `fuel`. None when the number is too large. -/
def scale (fuel : Nat) (value : Float) (exponent : Int) : Option Float :=
  if exponent.natAbs ≤ largestPower.toNat then
    if 0 ≤ exponent then
      let scaled := value * powerOfTen exponent.toNat
      if scaled.isInf then none else some scaled
    else some (value / powerOfTen exponent.natAbs)
  else if value == 0.0 then some value
  else if 0 ≤ exponent then none
  else match fuel with
    | 0 => some 0.0
    | fuel + 1 => scale fuel (value / powerOfTen largestPower.toNat) (exponent + largestPower)

/-- The double of a decimal with a sign. After three divisions by the largest power of ten nothing
is left. -/
def Decimal.toDouble? (negative : Bool) (decimal : Decimal) : Option Float :=
  (scale 3 decimal.significand.toUInt64.toFloat decimal.exponent).map fun value =>
    if negative then -value else value

/-- The largest exponent that is counted. -/
def largestExponent : Nat := 2147483647

/-- The double of a decimal with a written exponent. -/
def Decimal.withExponent? (negative : Bool) (decimal : Decimal) (minus : Bool) (digits : Text) :
    Option Float :=
  let written := Text.digitsValue 0 digits
  if written ≤ largestExponent then
    let shift : Int := if minus then -written else written
    { decimal with exponent := decimal.exponent + shift }.toDouble? negative
  else if decimal.significand ≠ 0 ∧ !minus then none
  else some (if negative then -0.0 else 0.0)

/-- A whole number: an integer if a 64-bit word holds it, signed or not. Minus zero is a double. -/
def wholeNumber? (negative : Bool) (decimal : Decimal) : Option Number :=
  let n := decimal.significand
  if decimal.exponent ≠ 0 then (decimal.toDouble? negative).map .double
  else if !negative then some (.integer n)
  else if 0 < n ∧ n ≤ 9223372036854775808 then some (.integer (-n))
  else (decimal.toDouble? negative).map .double

/-- Reads the exponent of a number, if one follows, and makes the number. -/
def takeExponent? (negative : Bool) (decimal : Decimal) (whole : Bool) (text : Text) :
    Option (Number × Text) :=
  match text with
  | c :: rest =>
    if c = 'e' || c = 'E' then
      let (minus, digits) := match rest with
        | '+' :: digits => (false, digits)
        | '-' :: digits => (true, digits)
        | digits => (false, digits)
      let exponent := digits.takeWhile Char.isDigit
      if exponent = [] then none
      else
        (decimal.withExponent? negative minus exponent).map fun value =>
          (.double value, digits.dropWhile Char.isDigit)
    else if whole then (wholeNumber? negative decimal).map (·, text)
    else (decimal.toDouble? negative).map fun value => (.double value, text)
  | [] =>
    if whole then (wholeNumber? negative decimal).map (·, [])
    else (decimal.toDouble? negative).map fun value => (.double value, [])

/-- Reads a number behind its sign. An integer has no zero in front of other digits, and a point is
followed by a digit. -/
def takeUnsigned? (negative : Bool) (text : Text) : Option (Number × Text) :=
  let digits := text.takeWhile Char.isDigit
  let rest := text.dropWhile Char.isDigit
  if digits = [] ∨ (digits.head? = some '0' ∧ digits.length ≠ 1) then none
  else
    let integer := Decimal.takeInteger ⟨0, 0⟩ digits
    match rest with
    | '.' :: tail =>
      let fraction := tail.takeWhile Char.isDigit
      if fraction = [] then none
      else
        takeExponent? negative (integer.takeFraction fraction) false (tail.dropWhile Char.isDigit)
    | _ => takeExponent? negative integer true rest

def takeNumber? (text : Text) : Option (Number × Text) :=
  match text with
  | '-' :: rest => takeUnsigned? true rest
  | _ => takeUnsigned? false text

/-- Reads the digits of a code point behind a backslash and a `u`. A code point outside the basic
plane takes two halves, and a half alone is refused. -/
def takeCodePoint? (text : Text) : Option (Taken Char text) :=
  match Text.takeHex? 4 text with
  | none => none
  | some first =>
    if first.value < 0xD800 ∨ 0xDFFF < first.value then
      some (first.map Char.ofNat)
    else if 0xDC00 ≤ first.value then none
    else match behind : first.rest with
      | '\\' :: 'u' :: tail =>
        match Text.takeHex? 4 tail with
        | none => none
        | some second =>
          if 0xDC00 ≤ second.value ∧ second.value ≤ 0xDFFF then
            let n := 0x10000 + (first.value - 0xD800) * 0x400 + (second.value - 0xDC00)
            some ⟨Char.ofNat n, second.rest, by
              have outer := first.shorter
              have inner := second.shorter
              rw [behind] at outer
              simp only [List.length_cons] at outer
              omega⟩
          else none
      | _ => none

def escapedChar? (c : Char) : Option Char :=
  if c = '"' || c = '\\' || c = '/' then some c
  else if c = 'b' then some '\x08'
  else if c = 'f' then some '\x0c'
  else if c = 'n' then some '\n'
  else if c = 'r' then some '\r'
  else if c = 't' then some '\t'
  else none

/-- Reads one character of a string, written as itself or escaped. -/
def takeStringChar? (text : Text) : Option (Taken Char text) :=
  match text with
  | '\\' :: 'u' :: rest =>
    (takeCodePoint? rest).map (·.within (by simp only [List.length_cons]; omega))
  | '\\' :: c :: rest =>
    (escapedChar? c).map fun value => ⟨value, rest, by simp only [List.length_cons]; omega⟩
  | c :: rest =>
    if c.toNat < 0x20 ∨ c = '\\' then none
    else some ⟨c, rest, Text.length_lt_length_cons c rest⟩
  | [] => none

def takeString? (text : Text) : Option (Taken Text text) :=
  match Text.takeChar? '"' text with
  | some quote => some (quote.map fun _ => [])
  | none =>
    match takeStringChar? text with
    | none => none
    | some first =>
      match takeString? first.rest with
      | none => none
      | some others =>
        some ⟨first.value :: others.value, others.rest, Nat.lt_trans others.shorter first.shorter⟩
termination_by text.length
decreasing_by exact first.shorter

def takeScalar? (text : Text) : Option (Taken Value text) :=
  match Text.takeWord? ['n', 'u', 'l', 'l'] text with
  | some word => some (word.map fun _ => .null)
  | none =>
    match Text.takeWord? ['t', 'r', 'u', 'e'] text with
    | some word => some (word.map fun _ => .bool true)
    | none =>
      match Text.takeWord? ['f', 'a', 'l', 's', 'e'] text with
      | some word => some (word.map fun _ => .bool false)
      | none =>
        match takeNumber? text with
        | some (number, rest) => Taken.ofRest? (.number number) rest
        | none => none

mutual

/-- Reads a value with the space in front of it, nested at most `depth` deep. -/
def takeValue? (depth : Nat) (text : Text) : Option (Taken Value text) :=
  have skipped := length_skipSpace_le text
  match begun : skipSpace text with
  | [] => none
  | c :: rest =>
    have bound : rest.length < text.length := by
      rw [begun, List.length_cons] at skipped
      omega
    if c = '"' then
      (takeString? rest).map fun taken => (taken.map .string).within (Nat.le_of_lt bound)
    else if c = '[' then
      match depth with
      | 0 => none
      | depth + 1 =>
        match inside : skipSpace rest with
        | ']' :: tail => some ⟨.array [], tail, by
            have behind := length_skipSpace_le rest
            rw [inside, List.length_cons] at behind
            omega⟩
        | _ => (takeItems? depth rest).map fun taken =>
            (taken.map .array).within (Nat.le_of_lt bound)
    else if c = '{' then
      match depth with
      | 0 => none
      | depth + 1 =>
        match inside : skipSpace rest with
        | '}' :: tail => some ⟨.object [], tail, by
            have behind := length_skipSpace_le rest
            rw [inside, List.length_cons] at behind
            omega⟩
        | _ => (takeMembers? depth [] rest).map fun taken =>
            (taken.map .object).within (Nat.le_of_lt bound)
    else
      (takeScalar? (c :: rest)).map (·.within (by rw [← begun]; exact skipped))
termination_by (text.length, 0)

def takeItems? (depth : Nat) (text : Text) : Option (Taken (List Value) text) :=
  match takeValue? depth text with
  | none => none
  | some first =>
    match next : skipSpace first.rest with
    | ']' :: rest => some ⟨[first.value], rest, by
        have := first.shorter
        have behind := length_skipSpace_le first.rest
        rw [next, List.length_cons] at behind
        omega⟩
    | ',' :: rest =>
      have bound : rest.length < text.length := by
        have := first.shorter
        have behind := length_skipSpace_le first.rest
        rw [next, List.length_cons] at behind
        omega
      (takeItems? depth rest).map fun others =>
        (others.map (first.value :: ·)).within (Nat.le_of_lt bound)
    | _ => none
termination_by (text.length, 1)

/-- Reads the members of an object behind those that are already there, and its closing brace. -/
def takeMembers? (depth : Nat) (members : List (Text × Value)) (text : Text) :
    Option (Taken (List (Text × Value)) text) :=
  match begun : skipSpace text with
  | '"' :: quoted =>
    match takeString? quoted with
    | none => none
    | some key =>
      match next : skipSpace key.rest with
      | ':' :: valued =>
        have shorterValue : valued.length < text.length := by
          have := key.shorter
          have ahead := length_skipSpace_le text
          have between := length_skipSpace_le key.rest
          rw [begun, List.length_cons] at ahead
          rw [next, List.length_cons] at between
          omega
        match takeValue? depth valued with
        | none => none
        | some value =>
          let members := insertMember key.value value.value members
          match last : skipSpace value.rest with
          | '}' :: rest => some ⟨members, rest, by
              have := value.shorter
              have behind := length_skipSpace_le value.rest
              rw [last, List.length_cons] at behind
              omega⟩
          | ',' :: rest =>
            have bound : rest.length < text.length := by
              have := value.shorter
              have behind := length_skipSpace_le value.rest
              rw [last, List.length_cons] at behind
              omega
            (takeMembers? depth members rest).map (·.within (Nat.le_of_lt bound))
          | _ => none
      | _ => none
  | _ => none
termination_by (text.length, 1)

end

/-- The value that a whole text spells, nested at most `depth` deep. Nothing but space may stand
around it. -/
def ofText? (depth : Nat) (text : Text) : Option Value :=
  match takeValue? depth text with
  | some taken => if skipSpace taken.rest = [] then some taken.value else none
  | none => none

/-- How deep the values of a data file may be nested. -/
def defaultDepth : Nat := 127

def ofBytes? (bytes : List UInt8) : Option Value :=
  match Utf8.decode bytes with
  | .ok text => ofText? defaultDepth text
  | .error _ => none

end MailMerge.Json
