import MailMerge.Text.Numeral

/-!
The shortest decimal of a binary floating-point number. A double is `mantissa · 2 ^ exponent`, and
every real number nearer to it than to its neighbours reads back as it. Of the decimals in that
interval those with the fewest digits are candidates, and of these the nearest is taken. Which of
two equally near ones is taken is up to the format that is written.
-/

set_option autoImplicit false

namespace MailMerge.Numeral

/-- A positive number `mantissa · 2 ^ exponent`. -/
structure Binary where
  mantissa : Nat
  exponent : Int
  deriving Repr, DecidableEq

/-- A positive number `digits · 10 ^ exponent`. -/
structure Decimal where
  digits : Nat
  exponent : Int
  deriving Repr, DecidableEq

structure Fraction where
  numerator : Nat
  denominator : Nat
  deriving Repr, DecidableEq

def Fraction.scaleTwo (n : Nat) (exponent : Int) : Fraction :=
  ⟨n * Nat.pow 2 exponent.toNat, Nat.pow 2 (-exponent).toNat⟩

/-- A fraction divided by a power of ten. -/
def Fraction.overTen (exponent : Int) (fraction : Fraction) : Fraction :=
  ⟨fraction.numerator * Nat.pow 10 (-exponent).toNat,
    fraction.denominator * Nat.pow 10 exponent.toNat⟩

def hiddenBit : Nat := 4503599627370496

/-- The interval of reals that read back as a double, in quarters of its last place. The gap below a
power of two is half as wide. -/
def quarterBounds (binary : Binary) : Nat × Nat :=
  let below := if binary.mantissa = hiddenBit ∧ -1074 < binary.exponent then 1 else 2
  (4 * binary.mantissa - below, 4 * binary.mantissa + 2)

/-- Does a multiple of a power of ten read back as a double? The ends of the interval do when the
mantissa is even. -/
def readsBack (binary : Binary) (decimal : Decimal) : Bool :=
  let (low, high) := quarterBounds binary
  -- `digits · 10 ^ e` against `bound · 2 ^ (exponent - 2)`
  let unit := (Fraction.scaleTwo 1 (binary.exponent - 2)).overTen decimal.exponent
  let value := decimal.digits * unit.denominator
  let lowest := low * unit.numerator
  let highest := high * unit.numerator
  if binary.mantissa % 2 = 0 then lowest ≤ value && value ≤ highest
  else lowest < value && value < highest

def digitCount (n : Nat) : Nat := (Nat.toDigits 10 n).length

/-- The exponent of the first digit of a fraction: the largest `e` with `10 ^ e` not above it. -/
def leadingExponent (fraction : Fraction) : Int :=
  if fraction.denominator ≤ fraction.numerator then
    (digitCount (fraction.numerator / fraction.denominator) : Int) - 1
  else
    let scale := digitCount fraction.denominator - digitCount fraction.numerator + 1
    let raised := fraction.numerator * Nat.pow 10 scale / fraction.denominator
    (digitCount raised : Int) - 1 - scale

inductive TieRule where
  /-- The one whose last digit is even. -/
  | toEven
  /-- The larger one. -/
  | upward
  deriving Repr, DecidableEq

/-- Does a tie go to the decimal above `below`? -/
def TieRule.goesUp (rule : TieRule) (below : Nat) : Bool :=
  match rule with
  | toEven => below % 2 ≠ 0
  | upward => true

/-- The candidate with `count` digits: of the two neighbours on that grid the one that reads back,
of two the nearer, and of two as near the one that the rule takes. -/
def candidate? (tie : TieRule) (binary : Binary) (value : Fraction) (leading : Int) (count : Nat) :
    Option Decimal :=
  let exponent := leading - (count - 1 : Nat)
  let scaled := value.overTen exponent
  let below := scaled.numerator / scaled.denominator
  let remainder := scaled.numerator % scaled.denominator
  let lower : Decimal := ⟨below, exponent⟩
  let upper : Decimal := ⟨below + 1, exponent⟩
  match readsBack binary lower, readsBack binary upper with
  | true, false => some lower
  | false, true => some upper
  | false, false => none
  | true, true =>
    if 2 * remainder < scaled.denominator then some lower
    else if scaled.denominator < 2 * remainder then some upper
    else if tie.goesUp below then some upper
    else some lower

/-- The first candidate with at least `count` digits, where `more` further counts are tried. -/
def shortestFrom (tie : TieRule) (binary : Binary) (value : Fraction) (leading : Int)
    (count : Nat) : Nat → Decimal
  | 0 => ⟨(value.overTen leading).numerator / (value.overTen leading).denominator, leading⟩
  | more + 1 =>
    match candidate? tie binary value leading count with
    | some decimal => decimal
    | none => shortestFrom tie binary value leading (count + 1) more

/-- The shortest decimal that reads back as a double. Seventeen digits always do. -/
def shortest (tie : TieRule) (binary : Binary) : Decimal :=
  let value := Fraction.scaleTwo binary.mantissa binary.exponent
  shortestFrom tie binary value (leadingExponent value) 1 17

/-- A positive decimal as its digits without trailing zeros and the exponent of the first one. -/
structure Scientific where
  digits : Text
  exponent : Int
  deriving Repr, DecidableEq

/-- The zeros at the end of a row of digits are dropped. -/
def dropTrailingZeros (digits : Text) : Text := (digits.reverse.dropWhile (· = '0')).reverse

/-- A decimal by its significant digits. -/
def Decimal.toScientific (decimal : Decimal) : Scientific :=
  let digits := Text.ofNat decimal.digits
  ⟨dropTrailingZeros digits, decimal.exponent + (digits.length - 1 : Nat)⟩

inductive Double where
  | zero (negative : Bool)
  | finite (negative : Bool) (binary : Binary)
  | infinite (negative : Bool)
  | notANumber
  deriving Repr, DecidableEq

/-- Reads the sign, the exponent and the mantissa of a double off its 64 bits. -/
def Double.ofBits (bits : Nat) : Double :=
  let negative := bits / Nat.pow 2 63 = 1
  let exponent : Nat := bits / Nat.pow 2 52 % Nat.pow 2 11
  let fraction : Nat := bits % Nat.pow 2 52
  if exponent = 2047 then if fraction = 0 then .infinite negative else .notANumber
  else if exponent = 0 then
    if fraction = 0 then .zero negative else .finite negative ⟨fraction, -1074⟩
  else .finite negative ⟨hiddenBit + fraction, (exponent : Int) - 1075⟩

/-- The digits placed around the decimal point, which is written in any case only if `always`. -/
def positional (always : Bool) (number : Scientific) : Text :=
  let count := number.digits.length
  if number.exponent < 0 then
    '0' :: '.' :: List.replicate ((-number.exponent).toNat - 1) '0' ++ number.digits
  else
    let whole := number.exponent.toNat + 1
    if count ≤ whole then
      let integral := number.digits ++ List.replicate (whole - count) '0'
      if always then integral ++ ['.', '0'] else integral
    else number.digits.take whole ++ '.' :: number.digits.drop whole

/-- The digits with the point behind the first one and a signed exponent. -/
def exponential (number : Scientific) : Text :=
  let fraction := number.digits.drop 1
  let point := if fraction = [] then [] else '.' :: fraction
  let sign := if number.exponent < 0 then '-' else '+'
  number.digits.take 1 ++ point ++ 'e' :: sign :: Text.ofNat number.exponent.natAbs

def signed (negative : Bool) (text : Text) : Text := if negative then '-' :: text else text

end MailMerge.Numeral
