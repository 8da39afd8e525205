/-!
# Bracket depth

Running depth of one pair of brackets over a text.  Depth is a plain count: a
bracket inside a string literal or a comment counts like any other.  It is held in
a signed word of 32 bits, which wraps around at the ends of its range.

A scan does not feed its depths itself.  It is handed a `Counter` that does, with
an effect of its own; `Counter.plain` just feeds.
-/

namespace Wayfinder

/-- An opening and a closing character. -/
structure Bracket where
  opening : Char
  closing : Char
deriving Repr, DecidableEq

namespace Bracket

/-- Curly brackets. -/
def braces : Bracket := ⟨'{', '}'⟩

/-- Round brackets. -/
def parens : Bracket := ⟨'(', ')'⟩

/-- The depth after one more character. -/
def step (bracket : Bracket) (level : Int32) (c : Char) : Int32 :=
  if c = bracket.opening then level + 1
  else if c = bracket.closing then level - 1
  else level

/-- The depth after a text that starts at depth `level`. -/
def after (bracket : Bracket) (level : Int32) (text : List Char) : Int32 :=
  text.foldl bracket.step level

end Bracket

/-- A running depth of one pair of brackets. -/
structure Depth where
  bracket : Bracket
  level : Int32
deriving Repr, DecidableEq

namespace Depth

/-- The depth after a text. -/
def feed (depth : Depth) (text : List Char) : Depth :=
  { depth with level := depth.bracket.after depth.level text }

/-- Whether every opened bracket is closed.  Surplus closing brackets do no harm. -/
def isBalanced (depth : Depth) : Bool :=
  depth.level ≤ 0

end Depth

/-- A way to feed a text to a depth. -/
abbrev Counter (m : Type → Type) := Depth → List Char → m Depth

namespace Counter

/-- Feeds the text, and does nothing else. -/
def plain : Counter Id := Depth.feed

variable {m : Type → Type} (count : Counter m)

/-- The depth of round brackets over a text. -/
def ofParens (text : List Char) : m Depth :=
  count ⟨.parens, 0⟩ text

/-- The depth of curly brackets over a text. -/
def ofBraces (text : List Char) : m Depth :=
  count ⟨.braces, 0⟩ text

end Counter

end Wayfinder
