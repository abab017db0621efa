import MailMerge.Numeral.Shortest

set_option autoImplicit false

namespace MailMerge.Settings

/-- A value of a settings file or of a single override. -/
inductive Setting where
  /-- The gap left where a list was lengthened. -/
  | unset
  | flag (value : Bool)
  | integer (value : Int)
  | float (value : Float)
  | text (value : Text)
  | list (items : List Setting)
  | table (entries : List (Text × Setting))
  deriving Repr

/-- The text of a float, without an exponent and with a point only in front of a fraction. Of two
equally short and equally near decimals the larger one stands for it. -/
def floatText (value : Float) : Text :=
  match Numeral.Double.ofBits value.toBits.toNat with
  | .zero negative => Numeral.signed negative ['0']
  | .finite negative binary =>
    let number := (Numeral.shortest .upward binary).toScientific
    Numeral.signed negative (Numeral.positional false number)
  | .infinite negative => Numeral.signed negative ['i', 'n', 'f']
  | .notANumber => ['N', 'a', 'N']

def Setting.toText? : Setting → Option Text
  | text value => some value
  | flag true => some ['t', 'r', 'u', 'e']
  | flag false => some ['f', 'a', 'l', 's', 'e']
  | integer value => some (Text.ofInt value)
  | float value => some (floatText value)
  | unset | list _ | table _ => none

def oneWords : List Text := ["true".toList, "on".toList, "yes".toList]

def zeroWords : List Text := ["false".toList, "off".toList, "no".toList]

/-- A setting as a count. Floats are rounded to the nearest count, halves away from zero. -/
def Setting.toCount? : Setting → Option Nat
  | integer value => if 0 ≤ value then some value.toNat else none
  | flag value => some (if value then 1 else 0)
  | float value => some value.round.toUInt64.toNat
  | text value =>
    let word := Text.lowerAscii value
    if oneWords.contains word then some 1
    else if zeroWords.contains word then some 0
    else Text.toWord? value
  | unset | list _ | table _ => none

/-- A setting that names one of several choices: by a text, or by the only key of a table. Case does
not count. -/
def Setting.toChoice? : Setting → Option Text
  | text value => some (Text.lowerAscii value)
  | table [(key, _)] => some (Text.lowerAscii key)
  | _ => none

/-- The field of a group of settings: by its name in a table, by its place in a list. -/
def Setting.field? (name : Text) (place : Nat) : Setting → Option Setting
  | table entries => (entries.find? fun entry => entry.1 = name).map Prod.snd
  | list items => items[place]?
  | _ => none

end MailMerge.Settings
