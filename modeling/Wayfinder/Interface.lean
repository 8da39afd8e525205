/-!
# Interfaces and their method signatures

What a scan reports about an interface declaration.  Lines and columns count from
zero, and columns count characters.
-/

namespace Wayfinder

/-- A method signature declared by an interface. -/
structure Signature where
  /-- The name of the interface. -/
  owner : String
  name : String
  /-- The line on which the signature starts. -/
  line : Nat
  /-- The column of the name on that line. -/
  column : Nat
  /-- The line on which the signature ends. -/
  endLine : Nat
deriving Repr, DecidableEq

/-- An interface declaration. -/
structure Interface where
  name : String
  startLine : Nat
  endLine : Nat
  methods : List Signature
deriving Repr, DecidableEq

/-- Whether a line belongs to the declaration. -/
def Interface.contains (interface : Interface) (line : Nat) : Bool :=
  interface.startLine ≤ line && line ≤ interface.endLine

end Wayfinder
