import Wayfinder.Json.Reader

/-!
# Records in JSON

A record is a fixed list of named fields, each a text or a count, required or not.  It is
written as an object, or as an array that gives every field in order.

* `readRecord` reads a record straight from a text.  Members that are no field are passed
  over, and a field given twice is a mismatch as soon as its second name is read.
* `decodeRecord?` takes a record from a value.
-/

namespace Wayfinder.Json

/-- What a field holds. -/
inductive FieldKind where
  | text
  /-- A natural number of 64 bits. -/
  | count
deriving Repr, DecidableEq

/-- A named field. -/
structure Field where
  name : String
  kind : FieldKind
  /-- A field that is not required may be null or left out of an object. -/
  required : Bool
deriving Repr, DecidableEq

/-- What was given for a field. -/
inductive FieldValue where
  | absent
  | text (value : String)
  | count (value : Nat)
deriving Repr, DecidableEq

namespace FieldValue

/-- The text given. -/
def text? : FieldValue → Option String
  | .text value => some value
  | _ => none

/-- The count given. -/
def count? : FieldValue → Option Nat
  | .count value => some value
  | _ => none

end FieldValue

/-! ## From a text -/

/-- The fault of a value that is not of the kind wanted.  A text or a number is read to its
end first, and may turn out not to be JSON. -/
def unwanted (text : List Char) : Fault :=
  let after {α : Type} : Except Fault α → Fault
    | .ok _ => .mismatch
    | .error fault => fault
  match text with
  | '"' :: rest => after (readText rest)
  | '[' :: _ => .mismatch
  | '{' :: _ => .mismatch
  | 'n' :: rest => after (expect "ull" rest)
  | 't' :: rest => after (expect "rue" rest)
  | 'f' :: rest => after (expect "alse" rest)
  | c :: rest => if startsNumber c then after (readNumber (c :: rest)) else .malformed
  | [] => .malformed

/-- Reads a value of the given kind. -/
def readKind (kind : FieldKind) (text : List Char) : Except Fault (FieldValue × List Char) :=
  match kind, text with
  | .text, '"' :: rest => do
      let (value, rest) ← readText rest
      return (.text value, rest)
  | .count, c :: rest =>
      if startsNumber c then do
        let (number, rest) ← readNumber (c :: rest)
        match number.count? with
        | some value => return (.count value, rest)
        | none => throw .mismatch
      else .error (unwanted (c :: rest))
  | _, _ => .error (unwanted text)

/-- Reads the value of a field. -/
def readField (field : Field) (text : List Char) : Except Fault (FieldValue × List Char) :=
  match field.required, skipSpace text with
  | false, 'n' :: rest => do return (.absent, ← expect "ull" rest)
  | _, rest => readKind field.kind rest

/-- The values of fields given by name.  A required field must be given. -/
def valuesOf (fields : List Field) (given : List (String × FieldValue)) :
    Except Fault (List FieldValue) :=
  fields.mapM fun field =>
    match given.lookup field.name with
    | some value => .ok value
    | none => if field.required then .error .mismatch else .ok .absent

/-- Reads one member of an object behind the quote that opens its name, given the fields read
before. -/
def readMember (fields : List Field) (given : List (String × FieldValue)) (text : List Char) :
    Except Fault (List (String × FieldValue) × List Char) := do
  let (name, rest) ← readText text
  match fields.find? (·.name == name) with
  | none => return (given, ← skipValue (← expect ":" (skipSpace rest)))
  | some field =>
      if (given.lookup name).isSome then throw .mismatch
      else
        let (value, rest) ← readField field (← expect ":" (skipSpace rest))
        return (given ++ [(name, value)], rest)

/-- Reads members up to the end of an object, from a place where a member must start.  `fuel`
bounds their number. -/
def readMembersOf (fields : List Field) :
    Nat → List (String × FieldValue) → List Char → Except Fault (List FieldValue × List Char)
  | 0, _, _ => .error .malformed
  | fuel + 1, given, input =>
      match skipSpace input with
      | '"' :: rest => do
          let (given, rest) ← readMember fields given rest
          match skipSpace rest with
          | ',' :: rest => readMembersOf fields fuel given rest
          | '}' :: rest => return (← valuesOf fields given, rest)
          | _ => throw .malformed
      | _ => .error .malformed

/-- Reads the fields of an array in order, from a place where an item must start. -/
def readItemsOf : List Field → List Char → Except Fault (List FieldValue × List Char)
  | [], _ => .error .malformed
  | field :: more, input => do
      let (value, rest) ← readField field input
      match skipSpace rest, more with
      | ']' :: rest, [] => return ([value], rest)
      | ']' :: _, _ :: _ => throw .mismatch
      | ',' :: rest, _ :: _ =>
          match skipSpace rest with
          | ']' :: _ => throw .malformed
          | _ =>
              let (values, rest) ← readItemsOf more rest
              return (value :: values, rest)
      | _, _ => throw .malformed

/-- Reads a record off the front of a text. -/
def readRecordFrom (fields : List Field) (text : List Char) :
    Except Fault (List FieldValue × List Char) :=
  match skipSpace text with
  | '{' :: rest =>
      match skipSpace rest with
      | '}' :: rest => (valuesOf fields []).map (·, rest)
      | rest => readMembersOf fields (rest.length + 1) [] rest
  | '[' :: rest =>
      match skipSpace rest with
      | ']' :: _ => .error .mismatch
      | rest => readItemsOf fields rest
  | rest => .error (unwanted rest)

/-- Reads a text that is one record. -/
def readRecord (fields : List Field) (text : List Char) : Except Fault (List FieldValue) := do
  let (values, rest) ← readRecordFrom fields text
  expectEnd rest
  return values

/-! ## From a value -/

/-- The value of a field, taken from a value. -/
def decodeField? (field : Field) (json : Json) : Option FieldValue :=
  match field.required, json with
  | false, .null => some .absent
  | _, _ =>
      match field.kind with
      | .text => json.text?.map .text
      | .count => json.count?.map .count

/-- The values of the fields of a record. -/
def decodeRecord? (fields : List Field) (json : Json) : Option (List FieldValue) :=
  match json with
  | .object members =>
      fields.mapM fun field =>
        match members.lookup field.name with
        | some value => decodeField? field value
        | none => if field.required then none else some .absent
  | .array items =>
      if items.length = fields.length then
        (fields.zip items).mapM fun (field, item) => decodeField? field item
      else none
  | _ => none

end Wayfinder.Json
