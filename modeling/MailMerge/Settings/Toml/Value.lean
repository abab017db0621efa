import MailMerge.Settings.Toml.Moment
import MailMerge.Settings.Value

set_option autoImplicit false

namespace MailMerge.Settings.Toml

inductive Value where
  | text (value : Text)
  /-- A date or a time by its normal text. -/
  | moment (value : Text)
  | integer (value : Int)
  | float (value : Float)
  | flag (value : Bool)
  | list (items : List Value)
  | table (entries : List (Text × Value))
  deriving Repr

/-- The key of a table that spells a date or a time. -/
def momentKey : Text := "$__toml_private_datetime".toList

/-- Does a table with these entries spell a date or a time? -/
def spellsMoment (entries : List (Text × Value)) : Bool :=
  (entries.head?.map Prod.fst) == some momentKey

/-- The date or time that a text spells. Nothing but a text spells one. -/
def Value.moment? : Value → Option Text
  | text value => momentOfText? value
  | _ => none

mutual

/-- A value as a setting, unless a table in it spells no date or time although it should. -/
def Value.toSetting? : Value → Option Setting
  | .text value | .moment value => some (.text value)
  | .integer value => some (.integer value)
  | .float value => some (.float value)
  | .flag value => some (.flag value)
  | .list items => (itemsToSettings? items).map .list
  | .table entries =>
    if spellsMoment entries then
      (entries.head?.bind fun entry => entry.2.moment?).map .text
    else (entriesToSettings? entries).map .table

def itemsToSettings? : List Value → Option (List Setting)
  | [] => some []
  | item :: rest => do
    let setting ← item.toSetting?
    let settings ← itemsToSettings? rest
    return setting :: settings

def entriesToSettings? : List (Text × Value) → Option (List (Text × Setting))
  | [] => some []
  | (key, value) :: rest => do
    let setting ← value.toSetting?
    let settings ← entriesToSettings? rest
    return (key, setting) :: settings

end

end MailMerge.Settings.Toml
