import MailMerge.Numeral.Shortest

set_option autoImplicit false

namespace MailMerge.Json

inductive Number where
  | integer (value : Int)
  | double (value : Float)
  deriving Repr

inductive Value where
  | null
  | bool (value : Bool)
  | number (value : Number)
  | string (value : Text)
  | array (items : List Value)
  | object (members : List (Text × Value))
  deriving Repr

def Value.kind : Value → String
  | null => "null"
  | bool _ => "bool"
  | number _ => "number"
  | string _ => "string"
  | array _ => "array"
  | object _ => "object"

/-- The members with one more, in the order of the keys. A key that is there already gets the new
value. -/
def insertMember {α : Type} (key : Text) (value : α) : List (Text × α) → List (Text × α)
  | [] => [(key, value)]
  | (other, old) :: rest =>
    if key = other then (key, value) :: rest
    else if Text.precedes key other then (key, value) :: (other, old) :: rest
    else (other, old) :: insertMember key value rest

def member? {α : Type} (key : Text) : List (Text × α) → Option α
  | [] => none
  | (other, value) :: rest => if key = other then some value else member? key rest

/-- The text of a double: its shortest digits, written around the point while the exponent of the
first digit lies between -5 and 15, always with a fraction. -/
def doubleText (value : Float) : Text :=
  match Numeral.Double.ofBits value.toBits.toNat with
  | .zero negative => Numeral.signed negative ['0', '.', '0']
  | .finite negative binary =>
    let number := (Numeral.shortest .toEven binary).toScientific
    let digits :=
      if -5 ≤ number.exponent ∧ number.exponent ≤ 15 then Numeral.positional true number
      else Numeral.exponential number
    Numeral.signed negative digits
  | .infinite _ | .notANumber => ['n', 'u', 'l', 'l']

def Number.written : Number → Text
  | integer value => Text.ofInt value
  | double value => doubleText value

def fourHexDigits (n : Nat) : Text :=
  let digits := Nat.toDigits 16 n
  List.replicate (4 - digits.length) '0' ++ digits

/-- A character inside a JSON string: quotes, backslashes and control characters are escaped. -/
def stringChar (c : Char) : Text :=
  if c = '"' || c = '\\' then ['\\', c]
  else if c = '\x08' then ['\\', 'b']
  else if c = '\x0c' then ['\\', 'f']
  else if c = '\n' then ['\\', 'n']
  else if c = '\r' then ['\\', 'r']
  else if c = '\t' then ['\\', 't']
  else if c.toNat < 0x20 then '\\' :: 'u' :: fourHexDigits c.toNat
  else [c]

def stringText (text : Text) : Text := '"' :: text.flatMap stringChar ++ ['"']

mutual

/-- The written form of a value, without any space. -/
def Value.written : Value → Text
  | .null => ['n', 'u', 'l', 'l']
  | .bool true => ['t', 'r', 'u', 'e']
  | .bool false => ['f', 'a', 'l', 's', 'e']
  | .number value => value.written
  | .string value => stringText value
  | .array items => '[' :: writtenItems items ++ [']']
  | .object members => '{' :: writtenMembers members ++ ['}']

def writtenItems : List Value → Text
  | [] => []
  | [item] => item.written
  | item :: rest => item.written ++ ',' :: writtenItems rest

def writtenMembers : List (Text × Value) → Text
  | [] => []
  | [(key, value)] => stringText key ++ ':' :: value.written
  | (key, value) :: rest => stringText key ++ ':' :: value.written ++ ',' :: writtenMembers rest

end

end MailMerge.Json
