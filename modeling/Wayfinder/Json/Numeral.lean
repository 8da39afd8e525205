import Wayfinder.Json

/-!
# Numbers as they are written

A number that is not whole is read into a double in two roundings.  Its digits are gathered
into 64 bits, and those that no longer fit are left out.  What was gathered and the power of
ten are then each rounded to a double, and the two are multiplied.  A number is in range if
the product is finite.  So a few numbers just below the greatest double are out of range.

* `roundToDouble` rounds a natural number.
* `Gathered` is what was gathered from a row of digits.
* `Numeral.isInRange` decides the range, `Numeral.toJson` is the value.
-/

namespace Wayfinder.Json

/-! ## Doubles -/

/-- The number of significant bits of a double. -/
def precision : Nat := 53

/-- The nearest number with at most 53 significant bits; a tie goes to the even neighbour. -/
def roundToDouble (value : Nat) : Nat :=
  let shift := value.log2 + 1 - precision
  let unit := Nat.pow 2 shift
  let below := value / unit
  let twice := 2 * (value % unit)
  let up := unit < twice || (unit == twice && below % 2 == 1)
  (if up then below + 1 else below) * unit

/-- The least number that rounds to no finite double. -/
def overflow : Nat :=
  (Nat.pow 2 54 - 1) * Nat.pow 2 970

/-- The greatest power of ten that is a finite double. -/
def greatestPower : Nat := 308

/-- Whether a whole number times a power of ten is in range.  Only powers that are not
negative can lead out of it. -/
def isInRange (significand : Nat) (power : Int) : Bool :=
  if significand = 0 || power < 0 then true
  else if power.toNat ≤ greatestPower then
    roundToDouble significand * roundToDouble (Nat.pow 10 power.toNat) < overflow
  else false

/-! ## Digits -/

/-- Whether a character is one of the ten digits of a number. -/
def isNumberDigit (c : Char) : Bool :=
  '0' ≤ c && c ≤ '9'

/-- The value of a digit. -/
def digitValue (c : Char) : Nat :=
  c.toNat - 48

/-- The value of a row of digits. -/
def digitsValue (digits : List Char) : Nat :=
  digits.foldl (fun value c => value * 10 + digitValue c) 0

/-- What was gathered from a row of digits. -/
structure Gathered where
  value : Nat
  /-- How many digits were taken. -/
  taken : Nat
deriving Repr, DecidableEq

/-- Takes digits behind a value as long as it fits into 64 bits. -/
def gather (value : Nat) : List Char → Gathered
  | [] => { value := value, taken := 0 }
  | c :: more =>
      let longer := value * 10 + digitValue c
      if longer < countLimit then
        let rest := gather longer more
        { rest with taken := rest.taken + 1 }
      else { value := value, taken := 0 }

/-! ## Numerals -/

/-- A number as it is written. -/
structure Numeral where
  negative : Bool
  whole : List Char
  fraction : List Char
  exponentNegative : Bool
  exponent : List Char
  /-- Neither a fraction nor an exponent is written. -/
  plain : Bool
deriving Repr, DecidableEq

namespace Numeral

/-- The digits before and behind the point as one number. -/
def significand (numeral : Numeral) : Nat :=
  digitsValue (numeral.whole ++ numeral.fraction)

/-- The exponent with its sign. -/
def signedExponent (numeral : Numeral) : Int :=
  let exponent : Int := digitsValue numeral.exponent
  if numeral.exponentNegative then -exponent else exponent

/-- The power of ten by which the significand is multiplied. -/
def power (numeral : Numeral) : Int :=
  numeral.signedExponent - numeral.fraction.length

/-- Whether a number can be read.  Each digit left out before the point raises the power of
ten, and each digit taken behind it lowers the power. -/
def isInRange (numeral : Numeral) : Bool :=
  let units := gather 0 numeral.whole
  let all := gather units.value numeral.fraction
  let leftOut : Int := numeral.whole.length - units.taken
  Json.isInRange all.value (numeral.signedExponent + leftOut - all.taken)

/-- The value of a numeral.  `-0` is not a whole number. -/
def toJson (numeral : Numeral) : Json :=
  let sign : Int := if numeral.negative then -1 else 1
  if numeral.plain && !(numeral.negative && numeral.significand = 0) then
    .whole (sign * numeral.significand)
  else .decimal (sign * numeral.significand) numeral.power

end Numeral

end Wayfinder.Json
