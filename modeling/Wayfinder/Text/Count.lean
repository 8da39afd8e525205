/-!
# Counts in decimal

Reading a count: an optional plus sign and at least one ASCII digit, with a value that fits
64 bits.  Leading zeros are allowed.
-/

namespace Wayfinder.Text

/-- The value of one ASCII digit. -/
def digitValue? (c : Char) : Option Nat :=
  if '0' ≤ c && c ≤ '9' then some (c.toNat - 48) else none

/-- The value of a row of ASCII digits read behind `value`. -/
def digitsFrom (value : Nat) : List Char → Option Nat
  | [] => some value
  | c :: rest =>
      match digitValue? c with
      | some digit => digitsFrom (value * 10 + digit) rest
      | none => none

/-- The count that a text denotes. -/
def readCount? (text : List Char) : Option Nat :=
  let digits :=
    match text with
    | '+' :: rest => rest
    | _ => text
  if digits.isEmpty then none
  else
    match digitsFrom 0 digits with
    | some value => if value < Nat.pow 2 64 then some value else none
    | none => none

end Wayfinder.Text
