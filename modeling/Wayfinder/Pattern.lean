import Wayfinder.Text.Column

/-!
# Line patterns

A small pattern language for the start of a line.  A pattern is built from
literal text, runs of one kind of character, optional parts, captured groups and
the end of the line.  Elastic parts (runs and optional parts) state whether they
prefer to take much or little.  All choices are explored in that order of
preference, and the first choice under which the rest of the pattern fits wins.

* `Reading` is a place reached in a line, with the groups captured on the way.
* `Pattern.explore` hands each reading of a pattern to a continuation, in order
  of preference, until one is accepted.
* `Pattern.read?` is the preferred reading of a pattern at the start of a line.
-/

namespace Wayfinder

/-- The half-open range of character columns that a captured group covers. -/
structure Span where
  start : Nat
  stop : Nat
deriving Repr, DecidableEq

/-- The characters of a line that a span covers. -/
def Span.chars (span : Span) (line : List Char) : List Char :=
  (line.drop span.start).take (span.stop - span.start)

/-- The text of a line that a span covers. -/
def Span.text (span : Span) (line : List Char) : String :=
  String.ofList (span.chars line)

/-- The number of UTF-8 bytes of a line in front of a span. -/
def Span.byteStart (span : Span) (line : List Char) : Nat :=
  Text.byteSize (line.take span.start)

/-- A place in a line: its character column, the characters that follow it, and the groups
captured before it. -/
structure Reading where
  column : Nat
  rest : List Char
  groups : List (Nat × Span)
deriving Repr, DecidableEq

namespace Reading

/-- The start of a line. -/
def start (line : List Char) : Reading :=
  { column := 0, rest := line, groups := [] }

/-- The span of a captured group, if the group took part in the reading. -/
def group? (reading : Reading) (group : Nat) : Option Span :=
  reading.groups.lookup group

/-- The places after each number of characters of one kind, nearest place first. -/
def runsFrom (kind : Char → Bool) (groups : List (Nat × Span)) : Nat → List Char → List Reading
  | column, [] => [{ column := column, rest := [], groups := groups }]
  | column, c :: rest =>
      { column := column, rest := c :: rest, groups := groups } ::
        (if kind c then runsFrom kind groups (column + 1) rest else [])

/-- The places after each number of characters of one kind from here, nearest place first. -/
def runs (reading : Reading) (kind : Char → Bool) : List Reading :=
  runsFrom kind reading.groups reading.column reading.rest

end Reading

/-- Whether an elastic part of a pattern takes much or little if it can choose. -/
inductive Preference where
  | longest
  | shortest
deriving Repr, DecidableEq

/-- Puts choices that are listed shortest first into the order of preference. -/
def Preference.arrange {α : Type} : Preference → List α → List α
  | .longest, choices => choices.reverse
  | .shortest, choices => choices

/-- A pattern for the start of a line. -/
inductive Pattern where
  /-- The given characters. -/
  | literal (text : List Char)
  /-- At least `least` characters of one kind. -/
  | run (kind : Char → Bool) (least : Nat) (preference : Preference)
  /-- The inner pattern, whose span is captured under a number. -/
  | capture (group : Nat) (inner : Pattern)
  /-- The inner pattern or nothing. -/
  | maybe (inner : Pattern) (preference : Preference)
  /-- One pattern and then another. -/
  | seq (first second : Pattern)
  /-- The end of the line. -/
  | atEnd

namespace Pattern

/-- Patterns one after the other. -/
def sequence : List Pattern → Pattern
  | [] => .literal []
  | [pattern] => pattern
  | pattern :: more => .seq pattern (sequence more)

/-- The first answer of `accept` on the readings of a pattern, in order of preference. -/
def explore {α : Type} : Pattern → (Reading → Option α) → Reading → Option α
  | .literal text, accept, reading =>
      match text.isPrefixOf? reading.rest with
      | some rest => accept { reading with column := reading.column + text.length, rest := rest }
      | none => none
  | .run kind least preference, accept, reading =>
      (preference.arrange ((reading.runs kind).drop least)).findSome? accept
  | .capture group inner, accept, reading =>
      inner.explore
        (fun after =>
          accept { after with groups := after.groups ++ [(group, ⟨reading.column, after.column⟩)] })
        reading
  | .maybe inner .longest, accept, reading =>
      (inner.explore accept reading).or (accept reading)
  | .maybe inner .shortest, accept, reading =>
      match accept reading with
      | some answer => some answer
      | none => inner.explore accept reading
  | .seq first second, accept, reading =>
      first.explore (fun after => second.explore accept after) reading
  | .atEnd, accept, reading =>
      if reading.rest.isEmpty then accept reading else none

/-- The preferred reading of a pattern at the start of a line. -/
def read? (pattern : Pattern) (line : List Char) : Option Reading :=
  pattern.explore some (Reading.start line)

end Pattern

end Wayfinder
