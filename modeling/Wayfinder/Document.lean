import Wayfinder.Text.Blank
import Wayfinder.Text.Lines
import Wayfinder.Text.Utf8

/-!
# Documents

A document is a text cut into numbered lines, each of which is marked if it holds
nothing but comment.  Line comments, block comments and the quoted literals that
hide comment marks are recognised; nothing else of the language is.

* `Zone` is what the text at a place belongs to.
* `classify` decides whether a line is a comment line, and whether a block comment
  stays open behind it.  It reads the bytes of the line, not its characters.
* `Document.ofText` cuts and marks a whole text.
-/

namespace Wayfinder

/-! ## Comment lines -/

/-- What the text at a place of a line belongs to, for a text made of units of type `α`. -/
inductive Zone (α : Type) where
  | code
  /-- A block comment. -/
  | block
  /-- A literal opened by the given quote. -/
  | literal (quote : α)
deriving Repr, DecidableEq

/-- What is known about a line: whether it holds nothing but comment, and whether a block
comment is open at its end. -/
structure Verdict where
  isComment : Bool
  inBlock : Bool
deriving Repr, DecidableEq

/-- Whether a byte opens a literal: a string, a rune or a raw string. -/
def isQuoteByte (byte : UInt8) : Bool :=
  byte == 0x22 || byte == 0x27 || byte == 0x60

/-- Space, tab, line feed, form feed and carriage return. -/
def isBlankByte (byte : UInt8) : Bool :=
  byte == 0x20 || byte == 0x09 || byte == 0x0A || byte == 0x0C || byte == 0x0D

/-- The verdict on the rest of a line in bytes, given what was seen before it: some comment, and
some code.  A line comment settles the verdict.  In a literal that is not raw, a backslash hides
the byte behind it.  A literal that does not close on the line ends with it. -/
def classifyBytes : Zone UInt8 → Bool → Bool → List UInt8 → Verdict
  | zone, comment, code, [] => { isComment := comment && !code, inBlock := zone == .block }
  -- the bytes of an asterisk and a slash
  | .block, comment, code, 0x2A :: 0x2F :: rest => classifyBytes .code comment code rest
  | .block, comment, code, _ :: rest => classifyBytes .block comment code rest
  | .literal quote, comment, code, 0x5C :: byte :: rest =>
      if quote = 0x60 then classifyBytes (.literal quote) comment code (byte :: rest)
      else classifyBytes (.literal quote) comment code rest
  | .literal quote, comment, code, byte :: rest =>
      if byte = quote then classifyBytes .code comment code rest
      else classifyBytes (.literal quote) comment code rest
  | .code, _, code, 0x2F :: 0x2F :: _ => { isComment := !code, inBlock := false }
  | .code, _, code, 0x2F :: 0x2A :: rest => classifyBytes .block true code rest
  | .code, comment, code, byte :: rest =>
      if isQuoteByte byte then classifyBytes (.literal byte) comment true rest
      else classifyBytes .code comment (code || !isBlankByte byte) rest

/-- The verdict on a line that starts inside a block comment or outside of one. -/
def classify (inBlock : Bool) (line : List Char) : Verdict :=
  classifyBytes (if inBlock then .block else .code) inBlock false (Text.Utf8.encode line)

/-! ## Lines and documents -/

/-- One line of a document. -/
structure Line where
  /-- Position in the document, from zero. -/
  index : Nat
  text : String
  /-- The line holds nothing but comment. -/
  isComment : Bool
deriving Repr, DecidableEq

namespace Line

/-- The characters of the line. -/
def chars (line : Line) : List Char :=
  line.text.toList

/-- The characters of the line without blanks at either end. -/
def trimmed (line : Line) : List Char :=
  Text.trim line.chars

/-- Whether the line holds only blanks. -/
def isBlank (line : Line) : Bool :=
  line.trimmed.isEmpty

end Line

/-- Numbered lines, from `index` on, where a block comment may be open before the first. -/
def markLines (index : Nat) (inBlock : Bool) : List (List Char) → List Line
  | [] => []
  | chars :: more =>
      let verdict := classify inBlock chars
      { index := index, text := String.ofList chars, isComment := verdict.isComment } ::
        markLines (index + 1) verdict.inBlock more

/-- A text cut into lines. -/
structure Document where
  lines : List Line
deriving Repr, DecidableEq

namespace Document

/-- The document with the given text. -/
def ofText (text : String) : Document :=
  { lines := markLines 0 false (Text.splitLines text.toList) }

/-- The line at a position. -/
def line? (document : Document) (index : Nat) : Option Line :=
  document.lines[index]?

/-- The number of lines. -/
def size (document : Document) : Nat :=
  document.lines.length

/-- The lines behind a position. -/
def linesAfter (document : Document) (index : Nat) : List Line :=
  document.lines.drop (index + 1)

end Document

end Wayfinder
