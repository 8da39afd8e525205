/-!
# UTF-8

`encode` writes characters as bytes.  `decode` cuts a byte sequence into characters and
faults.  A fault covers the longest start of a well-formed character that is not continued
correctly, or one byte if there is none.  Overlong forms, surrogates and values above
U+10FFFF are faults.

* `decode?` accepts a byte sequence only if it has no fault.
* `decodeLossy` puts U+FFFD in the place of each fault.
-/

namespace Wayfinder.Text.Utf8

/-- The bytes of characters. -/
def encode (text : List Char) : List UInt8 :=
  text.flatMap String.utf8EncodeChar

/-- The bytes of a text. -/
def bytes (text : String) : List UInt8 :=
  encode text.toList

/-- Whether a byte continues a character. -/
def isContinuation (b : UInt8) : Bool :=
  0x80 ≤ b && b ≤ 0xBF

/-- Whether `second` may follow the lead byte of a character of three bytes. -/
def continuesThree (lead second : UInt8) : Bool :=
  if lead = 0xE0 then 0xA0 ≤ second && second ≤ 0xBF
  else if lead = 0xED then 0x80 ≤ second && second ≤ 0x9F
  else isContinuation second

/-- Whether `second` may follow the lead byte of a character of four bytes. -/
def continuesFour (lead second : UInt8) : Bool :=
  if lead = 0xF0 then 0x90 ≤ second && second ≤ 0xBF
  else if lead = 0xF4 then 0x80 ≤ second && second ≤ 0x8F
  else isContinuation second

/-- The six payload bits of a continuation byte appended to `high`. -/
def append (high : Nat) (b : UInt8) : Nat :=
  high * 64 + (b.toNat - 0x80)

/-- A character of two bytes, or a fault, and the bytes that follow it. -/
def readTwo (lead : UInt8) : List UInt8 → Option Char × List UInt8
  | b :: rest =>
      if isContinuation b then (some (Char.ofNat (append (lead.toNat - 0xC0) b)), rest)
      else (none, b :: rest)
  | [] => (none, [])

/-- A character of three bytes, or a fault, and the bytes that follow it. -/
def readThree (lead : UInt8) : List UInt8 → Option Char × List UInt8
  | b :: rest =>
      if continuesThree lead b then
        match rest with
        | c :: rest' =>
            if isContinuation c then
              (some (Char.ofNat (append (append (lead.toNat - 0xE0) b) c)), rest')
            else (none, rest)
        | [] => (none, [])
      else (none, b :: rest)
  | [] => (none, [])

/-- A character of four bytes, or a fault, and the bytes that follow it. -/
def readFour (lead : UInt8) : List UInt8 → Option Char × List UInt8
  | b :: rest =>
      if continuesFour lead b then
        match rest with
        | c :: rest' =>
            if isContinuation c then
              match rest' with
              | d :: rest'' =>
                  if isContinuation d then
                    (some (Char.ofNat (append (append (append (lead.toNat - 0xF0) b) c) d)),
                      rest'')
                  else (none, rest')
              | [] => (none, [])
            else (none, rest)
        | [] => (none, [])
      else (none, b :: rest)
  | [] => (none, [])

/-- The character or fault that starts with `lead`, and the bytes that follow it. -/
def readOne (lead : UInt8) (rest : List UInt8) : Option Char × List UInt8 :=
  if lead < 0x80 then (some (Char.ofNat lead.toNat), rest)
  else if 0xC2 ≤ lead && lead ≤ 0xDF then readTwo lead rest
  else if 0xE0 ≤ lead && lead ≤ 0xEF then readThree lead rest
  else if 0xF0 ≤ lead && lead ≤ 0xF4 then readFour lead rest
  else (none, rest)

/-- Reading a character never gives back more bytes than there were after its lead byte. -/
theorem readOne_rest_le (lead : UInt8) (rest : List UInt8) :
    (readOne lead rest).2.length ≤ rest.length := by
  unfold readOne readTwo readThree readFour
  repeat' split
  all_goals simp_all
  all_goals omega

/-- The characters of a byte sequence, with `none` for each fault. -/
def decode : List UInt8 → List (Option Char)
  | [] => []
  | lead :: rest =>
      (readOne lead rest).1 :: decode (readOne lead rest).2
termination_by bytes => bytes.length
decreasing_by
  have := readOne_rest_le lead rest
  simp only [List.length_cons]
  omega

/-- The text of a byte sequence, if it is well formed throughout. -/
def decode? (bytes : List UInt8) : Option String :=
  let pieces := decode bytes
  if pieces.all Option.isSome then some (String.ofList (pieces.filterMap id)) else none

/-- The text of a byte sequence, with the replacement character for each fault. -/
def decodeLossy (bytes : List UInt8) : String :=
  String.ofList ((decode bytes).map fun piece => piece.getD '�')

end Wayfinder.Text.Utf8
