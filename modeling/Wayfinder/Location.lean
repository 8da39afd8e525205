/-!
# Locations

Places in documents, and their order: by document, then by where they start, then by
where they stop.  Documents are compared by code points, which is also the order of
their UTF-8 bytes.
-/

namespace Wayfinder

/-- A line and a character column, both from zero. -/
structure Position where
  line : Nat
  character : Nat
deriving Repr, DecidableEq

/-- The order of positions in a document. -/
def Position.order (a b : Position) : Ordering :=
  (compare a.line b.line).then (compare a.character b.character)

/-- A range of text in a document. -/
structure Location where
  /-- The path of the document. -/
  document : String
  start : Position
  stop : Position
deriving Repr, DecidableEq

/-- The order of locations. -/
def Location.order (a b : Location) : Ordering :=
  (compare a.document b.document).then ((a.start.order b.start).then (a.stop.order b.stop))

end Wayfinder
