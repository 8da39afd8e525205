import Wayfinder.Json.Numeral

/-!
# Reading JSON

Readers take a value off the front of a text and give back the rest.  A reader that
fails says why: the text is not JSON (`malformed`), or it is JSON so far but not of the
kind that is wanted (`mismatch`).  The first fault met is the one reported.

* `readText`, `readNumber` read leaves.  Surrogate escapes must come in pairs, and a
  number must be in range.
* `readValue` reads a whole value.
* `skipValue` passes over a value that nobody asked for.  It checks the grammar only:
  single surrogates and numbers of any size pass.
* `Json.parse` reads a text that is one value.
-/

namespace Wayfinder.Json

/-- Why a text could not be read. -/
inductive Fault where
  /-- The text is not JSON. -/
  | malformed
  /-- A value is not of the kind that is wanted. -/
  | mismatch
deriving Repr, DecidableEq

/-! ## White space and words -/

/-- White space between the tokens. -/
def isSpace (c : Char) : Bool :=
  c == ' ' || c == '\n' || c == '\t' || c == '\r'

/-- The text behind the white space at its start. -/
def skipSpace (text : List Char) : List Char :=
  text.dropWhile isSpace

/-- The text behind the given word. -/
def expect (word : String) (text : List Char) : Except Fault (List Char) :=
  match word.toList.isPrefixOf? text with
  | some rest => .ok rest
  | none => .error .malformed

/-! ## Texts -/

/-- The value of a hexadecimal digit. -/
def hexValue? (c : Char) : Option Nat :=
  if '0' ≤ c && c ≤ '9' then some (c.toNat - 48)
  else if 'a' ≤ c && c ≤ 'f' then some (c.toNat - 87)
  else if 'A' ≤ c && c ≤ 'F' then some (c.toNat - 55)
  else none

/-- The value of four hexadecimal digits. -/
def hexValue4? (a b c d : Char) : Option Nat := do
  return (((← hexValue? a) * 16 + (← hexValue? b)) * 16 + (← hexValue? c)) * 16 + (← hexValue? d)

/-- The character that a one-letter escape stands for. -/
def unescape? (c : Char) : Option Char :=
  match c with
  | '"' => some '"'
  | '\\' => some '\\'
  | '/' => some '/'
  | 'b' => some '\x08'
  | 'f' => some '\x0C'
  | 'n' => some '\n'
  | 'r' => some '\r'
  | 't' => some '\t'
  | _ => none

/-- Whether a code unit is the first of a surrogate pair. -/
def isHighSurrogate (unit : Nat) : Bool :=
  0xD800 ≤ unit && unit ≤ 0xDBFF

/-- Whether a code unit is the second of a surrogate pair. -/
def isLowSurrogate (unit : Nat) : Bool :=
  0xDC00 ≤ unit && unit ≤ 0xDFFF

/-- Reads a text behind its opening quote.  `high` is the first half of a surrogate pair whose
second half must follow, and `done` what was read, in reverse. -/
def readTextFrom : Option Nat → List Char → List Char → Except Fault (String × List Char)
  | _, _, [] => .error .malformed
  | none, done, '"' :: rest => .ok (String.ofList done.reverse, rest)
  | high, done, '\\' :: 'u' :: a :: b :: c :: d :: rest =>
      match hexValue4? a b c d, high with
      | none, _ => .error .malformed
      | some unit, some first =>
          if isLowSurrogate unit then
            let code := 0x10000 + (first - 0xD800) * 0x400 + (unit - 0xDC00)
            readTextFrom none (Char.ofNat code :: done) rest
          else .error .malformed
      | some unit, none =>
          if isHighSurrogate unit then readTextFrom (some unit) done rest
          else if isLowSurrogate unit then .error .malformed
          else readTextFrom none (Char.ofNat unit :: done) rest
  | none, done, '\\' :: c :: rest =>
      match unescape? c with
      | some escaped => readTextFrom none (escaped :: done) rest
      | none => .error .malformed
  | none, done, c :: rest =>
      if c == '\\' || c.toNat < 32 then .error .malformed
      else readTextFrom none (c :: done) rest
  | some _, _, _ :: _ => .error .malformed

/-- Reads a text behind its opening quote. -/
def readText (text : List Char) : Except Fault (String × List Char) :=
  readTextFrom none [] text

/-- Passes over a text behind its opening quote. -/
def skipText : List Char → Except Fault (List Char)
  | [] => .error .malformed
  | '"' :: rest => .ok rest
  | '\\' :: 'u' :: a :: b :: c :: d :: rest =>
      if (hexValue4? a b c d).isSome then skipText rest else .error .malformed
  | '\\' :: c :: rest =>
      if (unescape? c).isSome then skipText rest else .error .malformed
  | c :: rest => if c == '\\' || c.toNat < 32 then .error .malformed else skipText rest

/-! ## Numbers -/

/-- A row of at least one digit and the rest. -/
def readDigits (text : List Char) : Except Fault (List Char × List Char) :=
  let digits := text.takeWhile isNumberDigit
  if digits.isEmpty then .error .malformed else .ok (digits, text.dropWhile isNumberDigit)

/-- The digits before the point.  A zero stands alone. -/
def readWhole (text : List Char) : Except Fault (List Char × List Char) :=
  match text with
  | '0' :: rest =>
      if (rest.head?.map isNumberDigit).getD false then .error .malformed else .ok (['0'], rest)
  | _ => readDigits text

/-- The fraction, empty if there is no point. -/
def readFraction (text : List Char) : Except Fault (List Char × List Char) :=
  match text with
  | '.' :: rest => readDigits rest
  | _ => .ok ([], text)

/-- The exponent and whether it is negative, empty if there is none. -/
def readExponent (text : List Char) : Except Fault ((Bool × List Char) × List Char) :=
  let digits (negative : Bool) (rest : List Char) :
      Except Fault ((Bool × List Char) × List Char) := do
    let (row, rest) ← readDigits rest
    return ((negative, row), rest)
  match text with
  | c :: rest =>
      if c == 'e' || c == 'E' then
        match rest with
        | '-' :: rest' => digits true rest'
        | '+' :: rest' => digits false rest'
        | _ => digits false rest
      else .ok ((false, []), text)
  | [] => .ok ((false, []), text)

/-- A number as it is written. -/
def readNumeral (text : List Char) : Except Fault (Numeral × List Char) := do
  let (negative, unsigned) :=
    match text with
    | '-' :: rest => (true, rest)
    | _ => (false, text)
  let (units, afterWhole) ← readWhole unsigned
  let (fraction, afterFraction) ← readFraction afterWhole
  let ((exponentNegative, exponent), rest) ← readExponent afterFraction
  return ({
    negative := negative
    whole := units
    fraction := fraction
    exponentNegative := exponentNegative
    exponent := exponent
    plain := fraction.isEmpty && exponent.isEmpty
  }, rest)

/-- Reads a number. -/
def readNumber (text : List Char) : Except Fault (Json × List Char) := do
  let (numeral, rest) ← readNumeral text
  if numeral.isInRange then return (numeral.toJson, rest) else throw .malformed

/-! ## Values -/

/-- Whether a character starts a number. -/
def startsNumber (c : Char) : Bool :=
  c == '-' || isNumberDigit c

mutual

/-- Reads a value of limited nesting.  `fuel` bounds the number of nested readers. -/
def readValueWith (fuel : Nat) (text : List Char) : Except Fault (Json × List Char) :=
  match fuel with
  | 0 => .error .malformed
  | fuel + 1 =>
      match skipSpace text with
      | [] => .error .malformed
      | '"' :: rest => do
          let (value, rest) ← readText rest
          return (.text value, rest)
      | '[' :: rest =>
          match skipSpace rest with
          | ']' :: rest => .ok (.array [], rest)
          | rest => do
              let (items, rest) ← readItemsWith fuel rest
              return (.array items, rest)
      | '{' :: rest =>
          match skipSpace rest with
          | '}' :: rest => .ok (.object [], rest)
          | rest => do
              let (members, rest) ← readMembersWith fuel rest
              return (.object members, rest)
      | c :: rest =>
          if startsNumber c then readNumber (c :: rest)
          else if c == 'n' then do return (.null, ← expect "ull" rest)
          else if c == 't' then do return (.bool true, ← expect "rue" rest)
          else if c == 'f' then do return (.bool false, ← expect "alse" rest)
          else .error .malformed

/-- Reads the items of an array up to its end. -/
def readItemsWith (fuel : Nat) (text : List Char) : Except Fault (List Json × List Char) :=
  match fuel with
  | 0 => .error .malformed
  | fuel + 1 => do
      let (item, rest) ← readValueWith fuel text
      match skipSpace rest with
      | ',' :: rest =>
          let (items, rest) ← readItemsWith fuel rest
          return (item :: items, rest)
      | ']' :: rest => return ([item], rest)
      | _ => throw .malformed

/-- Reads the members of an object up to its end. -/
def readMembersWith (fuel : Nat) (text : List Char) :
    Except Fault (List (String × Json) × List Char) :=
  match fuel with
  | 0 => .error .malformed
  | fuel + 1 =>
      match skipSpace text with
      | '"' :: rest => do
          let (name, rest) ← readText rest
          let rest ← expect ":" (skipSpace rest)
          let (value, rest) ← readValueWith fuel rest
          match skipSpace rest with
          | ',' :: rest =>
              let (members, rest) ← readMembersWith fuel rest
              return ((name, value) :: members, rest)
          | '}' :: rest => return ([(name, value)], rest)
          | _ => throw .malformed
      | _ => .error .malformed

end

/-- Reads a value. -/
def readValue (text : List Char) : Except Fault (Json × List Char) :=
  readValueWith (text.length + 1) text

mutual

/-- Passes over a value of limited nesting.  `fuel` bounds the number of nested readers. -/
def skipValueWith (fuel : Nat) (text : List Char) : Except Fault (List Char) :=
  match fuel with
  | 0 => .error .malformed
  | fuel + 1 =>
      match skipSpace text with
      | [] => .error .malformed
      | '"' :: rest => skipText rest
      | '[' :: rest =>
          match skipSpace rest with
          | ']' :: rest => .ok rest
          | rest => skipItemsWith fuel rest
      | '{' :: rest =>
          match skipSpace rest with
          | '}' :: rest => .ok rest
          | rest => skipMembersWith fuel rest
      | c :: rest =>
          if startsNumber c then (readNumeral (c :: rest)).map (·.2)
          else if c == 'n' then expect "ull" rest
          else if c == 't' then expect "rue" rest
          else if c == 'f' then expect "alse" rest
          else .error .malformed

/-- Passes over the items of an array up to its end. -/
def skipItemsWith (fuel : Nat) (text : List Char) : Except Fault (List Char) :=
  match fuel with
  | 0 => .error .malformed
  | fuel + 1 => do
      let rest ← skipValueWith fuel text
      match skipSpace rest with
      | ',' :: rest => skipItemsWith fuel rest
      | ']' :: rest => return rest
      | _ => throw .malformed

/-- Passes over the members of an object up to its end. -/
def skipMembersWith (fuel : Nat) (text : List Char) : Except Fault (List Char) :=
  match fuel with
  | 0 => .error .malformed
  | fuel + 1 =>
      match skipSpace text with
      | '"' :: rest => do
          let rest ← skipText rest
          let rest ← expect ":" (skipSpace rest)
          let rest ← skipValueWith fuel rest
          match skipSpace rest with
          | ',' :: rest => skipMembersWith fuel rest
          | '}' :: rest => return rest
          | _ => throw .malformed
      | _ => .error .malformed

end

/-- Passes over a value. -/
def skipValue (text : List Char) : Except Fault (List Char) :=
  skipValueWith (text.length + 1) text

/-- Accepts the end of a text, with white space before it. -/
def expectEnd (text : List Char) : Except Fault Unit :=
  if (skipSpace text).isEmpty then .ok () else .error .malformed

/-- Reads a text that is one value. -/
def parse (text : String) : Except Fault Json := do
  let (json, rest) ← readValue text.toList
  expectEnd rest
  return json

end Wayfinder.Json
