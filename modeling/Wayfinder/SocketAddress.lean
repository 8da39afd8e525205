/-!
# Socket addresses

An address of version 4 or 6 with a port, its written forms, and its one canonical form.

An octet is written in decimal without leading zeros.  A group of version 6 has up to four
hexadecimal digits; one run of zero groups may be left out as `::`, and the last two groups
may be written as an address of version 4.  An address of version 6 stands in square
brackets, behind which a scope may be named by a number.
-/

namespace Wayfinder

/-- An address and a port. -/
inductive SocketAddress where
  /-- Four octets. -/
  | v4 (octets : List Nat) (port : Nat)
  /-- Eight groups of 16 bits. -/
  | v6 (groups : List Nat) (scope : Nat) (port : Nat)
deriving Repr, DecidableEq

namespace SocketAddress

/-! ## Reading -/

/-- The value of a digit below 16. -/
def digit? (c : Char) : Option Nat :=
  if '0' ≤ c && c ≤ '9' then some (c.toNat - 48)
  else if 'a' ≤ c && c ≤ 'f' then some (c.toNat - 87)
  else if 'A' ≤ c && c ≤ 'F' then some (c.toNat - 55)
  else none

/-- Whether a character is a digit in the given base. -/
def isDigitOf (base : Nat) (c : Char) : Bool :=
  match digit? c with
  | some value => value < base
  | none => false

/-- Reads a number below a limit.  `width` bounds its digits, and `padded` allows leading
zeros. -/
def readNumber (base limit : Nat) (width : Option Nat) (padded : Bool) (text : List Char) :
    Option (Nat × List Char) :=
  let row := text.takeWhile (isDigitOf base)
  let value := row.foldl (fun value c => value * base + (digit? c).getD 0) 0
  let fits := match width with
    | some width => row.length ≤ width
    | none => true
  let plain := padded || row.length ≤ 1 || row.head? != some '0'
  if !row.isEmpty && fits && plain && value < limit then
    some (value, text.dropWhile (isDigitOf base))
  else none

/-- The text behind a character. -/
def expect (c : Char) : List Char → Option (List Char)
  | d :: rest => if d = c then some rest else none
  | [] => none

/-- The text behind a separator, which stands before all parts but the first. -/
def separator (c : Char) (first : Bool) (text : List Char) : Option (List Char) :=
  if first then some text else expect c text

/-- Reads octets divided by dots. -/
def readOctets : Nat → Bool → List Char → Option (List Nat × List Char)
  | 0, _, text => some ([], text)
  | count + 1, first, text => do
      let rest ← separator '.' first text
      let (octet, rest) ← readNumber 10 256 (some 3) false rest
      let (octets, rest) ← readOctets count false rest
      return (octet :: octets, rest)

/-- Groups read from a text, whether the last two were octets, and the rest. -/
structure Groups where
  groups : List Nat
  endedInOctets : Bool
  rest : List Char

/-- Reads the octets that may stand for the last two groups. -/
def readOctetGroups (first : Bool) (text : List Char) : Option Groups := do
  let rest ← separator ':' first text
  let (octets, rest) ← readOctets 4 true rest
  match octets with
  | [a, b, c, d] => return ⟨[a * 256 + b, c * 256 + d], true, rest⟩
  | _ => none

/-- Reads as many groups as there are, up to a number.  Octets need room for two. -/
def readGroups : Nat → Bool → List Char → Groups
  | 0, _, text => ⟨[], false, text⟩
  | count + 1, first, text =>
      match if count = 0 then none else readOctetGroups first text with
      | some groups => groups
      | none =>
          match (separator ':' first text).bind (readNumber 16 65536 (some 4) true) with
          | some (group, rest) =>
              let more := readGroups count false rest
              { more with groups := group :: more.groups }
          | none => ⟨[], false, text⟩

/-- Reads the eight groups of an address of version 6. -/
def readV6 (text : List Char) : Option (List Nat × List Char) := do
  let head := readGroups 8 true text
  if head.groups.length = 8 then return (head.groups, head.rest)
  else if head.endedInOctets then none
  else
    let rest ← expect ':' (← expect ':' head.rest)
    let tail := readGroups (7 - head.groups.length) true rest
    let zeros := List.replicate (8 - head.groups.length - tail.groups.length) 0
    return (head.groups ++ zeros ++ tail.groups, tail.rest)

/-- Reads a port behind its colon. -/
def readPort (text : List Char) : Option (Nat × List Char) := do
  readNumber 10 65536 none true (← expect ':' text)

/-- Reads an address of version 4 with a port. -/
def readSocketV4 (text : List Char) : Option (SocketAddress × List Char) := do
  let (octets, rest) ← readOctets 4 true text
  let (port, rest) ← readPort rest
  return (.v4 octets port, rest)

/-- Reads an address of version 6 with a port. -/
def readSocketV6 (text : List Char) : Option (SocketAddress × List Char) := do
  let (groups, rest) ← readV6 (← expect '[' text)
  let (scope, rest) :=
    ((expect '%' rest).bind (readNumber 10 (Nat.pow 2 32) none true)).getD (0, rest)
  let (port, rest) ← readPort (← expect ']' rest)
  return (.v6 groups scope port, rest)

/-- The address that a text denotes. -/
def parse? (text : String) : Option SocketAddress :=
  match (readSocketV4 text.toList).or (readSocketV6 text.toList) with
  | some (address, []) => some address
  | _ => none

/-! ## Writing -/

/-- A group in hexadecimal. -/
def hex (group : Nat) : String :=
  String.ofList (Nat.toDigits 16 group)

/-- Groups divided by colons. -/
def colons (groups : List Nat) : String :=
  ":".intercalate (groups.map hex)

/-- Octets divided by dots. -/
def dots (octets : List Nat) : String :=
  ".".intercalate (octets.map toString)

/-- The number of zero groups at the start. -/
def zerosAtStart (groups : List Nat) : Nat :=
  (groups.takeWhile (· == 0)).length

/-- The start and the length of the first longest run of zero groups. -/
def longestZeros (groups : List Nat) : Nat × Nat :=
  (List.range groups.length).foldl
    (fun best start =>
      let length := zerosAtStart (groups.drop start)
      if best.2 < length then (start, length) else best)
    (0, 0)

/-- Eight groups, with the first longest run of at least two zeros left out.  An address that
stands for one of version 4 shows it. -/
def writeV6 (groups : List Nat) : String :=
  match groups with
  | [0, 0, 0, 0, 0, 0xFFFF, high, low] =>
      "::ffff:" ++ dots [high / 256, high % 256, low / 256, low % 256]
  | _ =>
      let (start, length) := longestZeros groups
      if 1 < length then
        colons (groups.take start) ++ "::" ++ colons (groups.drop (start + length))
      else colons groups

/-- The canonical form of an address. -/
def render : SocketAddress → String
  | .v4 octets port => dots octets ++ ":" ++ toString port
  | .v6 groups scope port =>
      let zone := if scope = 0 then "" else "%" ++ toString scope
      "[" ++ writeV6 groups ++ zone ++ "]:" ++ toString port

end SocketAddress

end Wayfinder
