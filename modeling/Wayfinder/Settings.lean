import Wayfinder.Path

/-!
# Settings

What a user can choose, and the values that hold if nothing is chosen.
-/

namespace Wayfinder

/-- How counterparts are looked up. -/
inductive Oracle where
  /-- By method name, over the Go files of the workspace. -/
  | lexical
  /-- By asking the `gopls` tool. -/
  | gopls
deriving Repr, DecidableEq

namespace Oracle

/-- The word for a way of looking up. -/
def name : Oracle → String
  | .lexical => "lexical"
  | .gopls => "gopls"

/-- The way of looking up that a word denotes. -/
def ofName? (name : String) : Option Oracle :=
  if name == "lexical" then some .lexical
  else if name == "gopls" then some .gopls
  else none

end Oracle

/-- The number of blank lines that may separate parameters from results, if nothing else is
chosen. -/
def defaultLookahead : Nat := 3

/-- What a user can choose. -/
structure Settings where
  /-- The directory that is searched and in which relative paths start. -/
  workspace : Path := Path.ofText "."
  oracle : Oracle := .lexical
  /-- The program that is run to look up by `gopls`. -/
  gopls : Path := Path.ofText "gopls"
  lookahead : Nat := defaultLookahead
  /-- Whether test files are searched. -/
  includeTests : Bool := true
deriving Repr, DecidableEq

end Wayfinder
