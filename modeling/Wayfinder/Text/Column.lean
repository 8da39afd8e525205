/-!
# Character columns and byte columns

A place on a line has two coordinates: the number of characters before it, which
the library uses everywhere, and the number of UTF-8 bytes before it, which
external tools use.  `byteColumn` and `charColumn` convert between them.  Both
are total: a place past the end of the line is moved to its end, and a byte
offset inside a character counts that character.
-/

namespace Wayfinder.Text

/-- The number of UTF-8 bytes of a text. -/
def byteSize (text : List Char) : Nat :=
  text.foldr (fun c size => c.utf8Size + size) 0

/-- The number of characters of `line` that start before the byte `offset`. -/
def charColumn : List Char → Nat → Nat
  | [], _ => 0
  | c :: rest, offset =>
      if offset = 0 then 0 else charColumn rest (offset - c.utf8Size) + 1

/-- The byte offset at which the character at `column` starts. -/
def byteColumn : List Char → Nat → Nat
  | [], _ => 0
  | _ :: _, 0 => 0
  | c :: rest, column + 1 => c.utf8Size + byteColumn rest column

end Wayfinder.Text
