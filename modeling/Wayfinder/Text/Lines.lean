/-!
# Lines of a text

A line ends at a line feed.  One carriage return directly before the line feed
belongs to the line ending.  The text after the last line feed is a line only if
it is not empty, so a final line feed adds no empty line.
-/

namespace Wayfinder.Text

/-- The lines of a text, without their endings. -/
def splitLines : List Char → List (List Char)
  | [] => []
  | '\n' :: rest => [] :: splitLines rest
  | '\r' :: '\n' :: rest => [] :: splitLines rest
  | c :: rest =>
      match splitLines rest with
      | [] => [[c]]
      | line :: more => (c :: line) :: more

end Wayfinder.Text
