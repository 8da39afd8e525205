import Wayfinder.Failure
import Wayfinder.Location
import Wayfinder.Outline

/-!
# Lookups

A lookup answers which locations implement the interface method at a position, or which
interface methods the method at a position implements.
-/

namespace Wayfinder

/-- Answers a question about a position in a document. -/
abbrev Lookup := String → Position → Except Failure (List Location)

namespace Hint

/-- The position about which a lookup is asked: the start of the name. -/
def position (hint : Hint) : Position :=
  { line := hint.line, character := hint.startColumn }

/-- The location of the name in a document. -/
def location (hint : Hint) (document : String) : Location :=
  { document := document
    start := hint.position
    stop := { line := hint.line, character := hint.endColumn } }

/-- Whether another hint stands on the other side and has the same method name. -/
def isCounterpart (hint other : Hint) : Bool :=
  other.side == hint.side.opposite && other.method == hint.method

end Hint

end Wayfinder
