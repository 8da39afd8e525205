import Wayfinder.Text.Alphabetic
import Wayfinder.Text.Mark
import Wayfinder.Text.Numeral

/-!
# Word characters

Two notions of "part of a name".  `isWord` is the class that the line patterns
read names with, by version 16 of Unicode.  `isIdentifier` is the class that
ends a keyword, by version 17: it knows letters and numerals but no marks.
-/

namespace Wayfinder.Text

/-- The underscore and the other punctuation that connects words. -/
def connectorRanges : List (Nat × Nat) :=
  [(0x005F, 0x005F), (0x203F, 0x2040), (0x2054, 0x2054), (0xFE33, 0xFE34), (0xFE4D, 0xFE4F),
   (0xFF3F, 0xFF3F)]

/-- The zero-width joiner and non-joiner. -/
def isJoiner (c : Char) : Bool :=
  c.toNat == 0x200C || c.toNat == 0x200D

/-- A character of a name: a letter, mark, decimal digit, connector or joiner. -/
def isWord (c : Char) : Bool :=
  isAlphabetic c || isMark c || isDigit c || inRanges connectorRanges c.toNat || isJoiner c

/-- The letters and numerals that version 17 adds to version 16. -/
def addedAlphanumericRanges : List (Nat × Nat) :=
  [(0x088F, 0x088F), (0x0C5C, 0x0C5C), (0x0CDC, 0x0CDC), (0xA7CE, 0xA7CF), (0xA7D2, 0xA7D2),
   (0xA7D4, 0xA7D4), (0xA7F1, 0xA7F1), (0x10940, 0x10959), (0x10EC5, 0x10EC7),
   (0x10EFA, 0x10EFB), (0x11B60, 0x11B67), (0x11DB0, 0x11DDB), (0x11DE0, 0x11DE9),
   (0x16EA0, 0x16EB8), (0x16EBB, 0x16ED3), (0x16FF2, 0x16FF6), (0x187F8, 0x187FF),
   (0x18D09, 0x18D1E), (0x18D80, 0x18DF2), (0x1E6C0, 0x1E6DE), (0x1E6E0, 0x1E6F5),
   (0x1E6FE, 0x1E6FF), (0x2B73A, 0x2B73F), (0x2CEA2, 0x2CEAD), (0x323B0, 0x33479)]

/-- A letter or a numeral of any kind, by version 17. -/
def isAlphanumeric (c : Char) : Bool :=
  isAlphabetic c || isDigit c || isOtherNumeral c || inRanges addedAlphanumericRanges c.toNat

/-- A character that continues a keyword into a longer identifier. -/
def isIdentifier (c : Char) : Bool :=
  isAlphanumeric c || c == '_'

end Wayfinder.Text
