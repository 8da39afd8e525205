/-!
# JSON values

Whole numbers are kept apart from all others, because only they are lines and
columns.  Members of an object keep their order.
-/

namespace Wayfinder

/-- A JSON value. -/
inductive Json where
  | null
  | bool (value : Bool)
  /-- A number written without fraction and exponent, other than `-0`. -/
  | whole (value : Int)
  /-- Any other number: `digits` times ten to the power `exponent`. -/
  | decimal (digits exponent : Int)
  | text (value : String)
  | array (items : List Json)
  | object (members : List (String × Json))
deriving Repr, Inhabited

/-- The number of values that a line, a column or a count can have: 64 bits. -/
def countLimit : Nat := Nat.pow 2 64

namespace Json

/-- A natural number as a JSON value. -/
def count (value : Nat) : Json :=
  .whole (Int.ofNat value)

/-- A value, or null in its place. -/
def optional {α : Type} (encode : α → Json) : Option α → Json
  | some value => encode value
  | none => .null

/-- A member of an object. -/
def member? (json : Json) (name : String) : Option Json :=
  match json with
  | .object members => members.lookup name
  | _ => none

/-- The natural number below the limit that a value denotes. -/
def count? : Json → Option Nat
  | .whole (.ofNat value) => if value < countLimit then some value else none
  | _ => none

/-- The text that a value denotes. -/
def text? : Json → Option String
  | .text value => some value
  | _ => none

end Json

end Wayfinder
