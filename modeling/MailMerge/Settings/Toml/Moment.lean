import MailMerge.Numeral.Shortest

set_option autoImplicit false

namespace MailMerge.Settings.Toml

/-- Reads a number of exactly `count` digits that lies in a range. -/
def takeField? (count low high : Nat) (text : Text) : Option (Text × Text) :=
  let digits := text.take count
  if digits.length = count ∧ digits.all Char.isDigit ∧ low ≤ Text.digitsValue 0 digits
      ∧ Text.digitsValue 0 digits ≤ high then some (digits, text.drop count)
  else none

def takeChar? (c : Char) : Text → Option Text
  | d :: rest => if d = c then some rest else none
  | [] => none

def daysOfMonth (year month : Nat) : Nat :=
  if month = 2 then
    if year % 4 = 0 ∧ (year % 100 ≠ 0 ∨ year % 400 = 0) then 29 else 28
  else if month = 4 ∨ month = 6 ∨ month = 9 ∨ month = 11 then 30
  else 31

def takeDate? (text : Text) : Option (Text × Text) := do
  let (year, rest) ← takeField? 4 0 9999 text
  let rest ← takeChar? '-' rest
  let (month, rest) ← takeField? 2 1 12 rest
  let rest ← takeChar? '-' rest
  let days := daysOfMonth (Text.digitsValue 0 year) (Text.digitsValue 0 month)
  let (day, rest) ← takeField? 2 1 days rest
  return (year ++ '-' :: month ++ '-' :: day, rest)

def takeFraction (text : Text) : Text × Text :=
  match text with
  | '.' :: rest =>
    let digits := rest.takeWhile Char.isDigit
    if digits = [] then ([], text)
    else
      let kept := Numeral.dropTrailingZeros (digits.take 9)
      (if kept = [] then [] else '.' :: kept, rest.dropWhile Char.isDigit)
  | _ => ([], text)

/-- Reads a time of day whose hour is at most `lastHour`. A minute may have a leap second. -/
def takeTime? (lastHour : Nat) (text : Text) : Option (Text × Text) := do
  let (hour, rest) ← takeField? 2 0 lastHour text
  let rest ← takeChar? ':' rest
  let (minute, rest) ← takeField? 2 0 59 rest
  let rest ← takeChar? ':' rest
  let (second, rest) ← takeField? 2 0 60 rest
  let (fraction, rest) := takeFraction rest
  return (hour ++ ':' :: minute ++ ':' :: second ++ fraction, rest)

def twoDigits (n : Nat) : Text := if n < 10 then '0' :: Text.ofNat n else Text.ofNat n

def zoneText (sign : Char) (minutes : Nat) : Text :=
  (if minutes = 0 then '+' else sign) :: twoDigits (minutes / 60) ++ ':' :: twoDigits (minutes % 60)

/-- Reads the distance from universal time: at most a day, in hours and minutes that are at most as
large as given. -/
def takeZone? (lastHour lastMinute : Nat) (text : Text) : Option (Text × Text) :=
  match text with
  | [] => none
  | sign :: rest =>
    if sign = 'Z' ∨ sign = 'z' then some (['Z'], rest)
    else if sign = '+' ∨ sign = '-' then do
      let (hour, rest) ← takeField? 2 0 lastHour rest
      let rest ← takeChar? ':' rest
      let (minute, rest) ← takeField? 2 0 lastMinute rest
      let minutes := 60 * Text.digitsValue 0 hour + Text.digitsValue 0 minute
      if minutes ≤ 1440 then return (zoneText sign minutes, rest) else none
    else none

/-- May this character stand between a date and a time? -/
def isTimeMark (c : Char) : Bool := c = 'T' || c = 't' || c = ' '

/-- Reads the time and the zone behind a date, if they follow. -/
def takeMoment (date rest : Text) : Text × Text :=
  match rest with
  | c :: behind =>
    if isTimeMark c then
      match takeTime? 23 behind with
      | none => (date, rest)
      | some (time, rest) =>
        let moment := date ++ 'T' :: time
        match takeZone? 23 59 rest with
        | none => (moment, rest)
        | some (zone, rest) => (moment ++ zone, rest)
    else (date, rest)
  | [] => (date, [])

/-- Does a date begin here? Four digits and a hyphen begin nothing else. -/
def beginsDate (text : Text) : Bool :=
  (text.take 4).length = 4 && (text.take 4).all Char.isDigit && (text.drop 4).head? == some '-'

/-- Does a time begin here? Two digits and a colon begin nothing else. -/
def beginsTime (text : Text) : Bool :=
  (text.take 2).length = 2 && (text.take 2).all Char.isDigit && (text.drop 2).head? == some ':'

/-- The time of day that a whole text spells. The hour may be the one at the end of the day. -/
def timeOfText? (text : Text) : Option Text :=
  match takeTime? 24 text with
  | some (time, []) => some time
  | _ => none

/-- The time of day and the zone that a whole text spells. -/
def zonedOfText? (text : Text) : Option Text :=
  match takeTime? 24 text with
  | none => none
  | some (time, []) => some time
  | some (time, rest) =>
    match takeZone? 99 99 rest with
    | some (zone, []) => some (time ++ zone)
    | _ => none

/-- The date or time that a whole text spells, in its normal form: a `T` between the two, at most
nine digits of a fraction, no zeros at its end, and a plus sign in front of a distance of zero. -/
def momentOfText? (text : Text) : Option Text :=
  if (text.drop 2).head? = some ':' then timeOfText? text
  else
    match takeDate? text with
    | none => none
    | some (date, []) => some date
    | some (date, c :: rest) =>
      if isTimeMark c then (zonedOfText? rest).map fun time => date ++ 'T' :: time else none

end MailMerge.Settings.Toml
