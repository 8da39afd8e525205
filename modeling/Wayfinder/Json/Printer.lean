import Wayfinder.Json

/-!
# Writing JSON

Two layouts: `compact`, without any space, and `pretty`, with one member or item on a
line and two blanks for each level.  An empty array or object is written without a line
break in both.  Characters above ASCII are written as they are.
-/

namespace Wayfinder.Json

/-- A hexadecimal digit, in lower case. -/
def hexDigit (value : Nat) : Char :=
  if value < 10 then Char.ofNat (48 + value) else Char.ofNat (87 + value)

/-- A character as it stands between the quotes of a text. -/
def escape (c : Char) : List Char :=
  match c with
  | '"' => ['\\', '"']
  | '\\' => ['\\', '\\']
  | '\n' => ['\\', 'n']
  | '\r' => ['\\', 'r']
  | '\t' => ['\\', 't']
  | '\x08' => ['\\', 'b']
  | '\x0C' => ['\\', 'f']
  | _ =>
      if c.toNat < 32 then
        ['\\', 'u', '0', '0', hexDigit (c.toNat / 16), hexDigit (c.toNat % 16)]
      else [c]

/-- A text in quotes. -/
def quote (text : String) : String :=
  "\"" ++ String.ofList (text.toList.flatMap escape) ++ "\""

/-- The start of a new line at the given level. -/
def newline (level : Nat) : String :=
  "\n" ++ String.ofList (List.replicate (2 * level) ' ')

mutual

/-- A value at the given level of nesting, on several lines. -/
def prettyAt (level : Nat) : Json → String
  | .null => "null"
  | .bool value => if value then "true" else "false"
  | .whole value => toString value
  | .decimal digits exponent => toString digits ++ "e" ++ toString exponent
  | .text value => quote value
  | .array [] => "[]"
  | .array (item :: more) =>
      "[" ++ newline (level + 1) ++ prettyAt (level + 1) item ++ prettyItems (level + 1) more ++
        newline level ++ "]"
  | .object [] => "\x7b\x7d"
  | .object ((name, value) :: more) =>
      "\x7b" ++ newline (level + 1) ++ quote name ++ ": " ++ prettyAt (level + 1) value ++
        prettyMembers (level + 1) more ++ newline level ++ "\x7d"

/-- The items behind the first. -/
def prettyItems (level : Nat) : List Json → String
  | [] => ""
  | item :: more => "," ++ newline level ++ prettyAt level item ++ prettyItems level more

/-- The members behind the first. -/
def prettyMembers (level : Nat) : List (String × Json) → String
  | [] => ""
  | (name, value) :: more =>
      "," ++ newline level ++ quote name ++ ": " ++ prettyAt level value ++
        prettyMembers level more

end

/-- A value on several lines. -/
def pretty (json : Json) : String :=
  prettyAt 0 json

mutual

/-- A value without any space. -/
def compact : Json → String
  | .null => "null"
  | .bool value => if value then "true" else "false"
  | .whole value => toString value
  | .decimal digits exponent => toString digits ++ "e" ++ toString exponent
  | .text value => quote value
  | .array [] => "[]"
  | .array (item :: more) => "[" ++ compact item ++ compactItems more ++ "]"
  | .object [] => "\x7b\x7d"
  | .object ((name, value) :: more) =>
      "\x7b" ++ quote name ++ ":" ++ compact value ++ compactMembers more ++ "\x7d"

/-- The items behind the first. -/
def compactItems : List Json → String
  | [] => ""
  | item :: more => "," ++ compact item ++ compactItems more

/-- The members behind the first. -/
def compactMembers : List (String × Json) → String
  | [] => ""
  | (name, value) :: more => "," ++ quote name ++ ":" ++ compact value ++ compactMembers more

end

end Wayfinder.Json
