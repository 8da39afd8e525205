import Wayfinder.Pattern
import Wayfinder.Text.Blank
import Wayfinder.Text.Word

/-!
# Headings of declarations

The line patterns that start an interface, a method signature inside an interface
and a method with a receiver, and the other tests made on single lines.

The receiver name is read reluctantly: in `func (T) M(` the word in the receiver is
the type, and a name stands in front of it only if the heading cannot be read
otherwise.
-/

namespace Wayfinder

namespace Heading

/-- Any number of blanks. -/
def blanks : Pattern := .run Text.isBlank 0 .longest

/-- At least one blank. -/
def gap : Pattern := .run Text.isBlank 1 .longest

/-- A name. -/
def word : Pattern := .run Text.isWord 1 .longest

/-- The given text. -/
def text (literal : String) : Pattern := .literal literal.toList

/-- The line that opens an interface; group 1 is its name. -/
def interface : Pattern :=
  .sequence [text "type", gap, .capture 1 word, gap, text "interface", blanks, text "\x7b"]

/-- The start of a method signature; group 1 is the method's name. -/
def signature : Pattern :=
  .sequence [blanks, .capture 1 word, blanks, text "("]

/-- The start of a method with a receiver; group 1 is the receiver's name, if it has one,
group 2 its type, and group 3 the method's name. -/
def receiver : Pattern :=
  .sequence
    [text "func", blanks, text "(", blanks,
      .maybe (.seq (.capture 1 word) blanks) .shortest,
      .maybe (text "*") .longest, blanks, .capture 2 word, blanks, text ")", blanks,
      .capture 3 word, blanks, text "("]

end Heading

/-- A line up to its line comment. -/
def beforeLineComment : List Char → List Char
  | [] => []
  | '/' :: '/' :: _ => []
  | c :: rest => c :: beforeLineComment rest

/-- The code of a line behind its last closing parenthesis, or all of its code if it has none,
without blanks at either end. -/
def tailAfterLastParen (line : List Char) : List Char :=
  Text.trim ((beforeLineComment line).reverse.takeWhile (· != ')')).reverse

/-- Whether the first word of a line is the keyword `func`. -/
def startsWithFunc (line : List Char) : Bool :=
  match "func".toList.isPrefixOf? (Text.trimStart line) with
  | some [] => true
  | some (c :: _) => !Text.isIdentifier c
  | none => false

end Wayfinder
