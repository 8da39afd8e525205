import Wayfinder.Lookup
import Wayfinder.Workspace

/-!
# Lookup by name

Without types, every method with the same name on the other side counts as a counterpart.
The Go files of the workspace are searched in order, each opened under the text that shows
its path, and files that cannot be read are passed over.
-/

namespace Wayfinder.Lookup.ByName

/-- The hint that a position asks about: the one whose name stands there, or else the first
on the line. -/
def hintAt? (hints : List Hint) (position : Position) : Option Hint :=
  (hints.find? (·.covers position.line position.character)).or
    (hints.find? (·.line == position.line))

/-- The counterparts of a hint in the document with the given name. -/
def counterpartsIn (host : Host) (workspace : Workspace) (lookahead : Nat) (hint : Hint)
    (file : String) : List Location :=
  match workspace.openDocument host file with
  | .ok document =>
      ((document.hints lookahead).filter hint.isCounterpart).map (·.location file)
  | .error _ => []

/-- The counterparts of the method at a position, in all Go files below the root.  There are
none where no method stands. -/
def lookup (host : Host) (root : Path) (lookahead : Nat) (includeTests : Bool) : Lookup :=
  fun document position => do
    let workspace := Workspace.rootedAt root
    let source ← workspace.openDocument host document
    match hintAt? (source.hints lookahead) position with
    | none => return []
    | some hint =>
        return (goFiles host root includeTests).flatMap
          fun path => counterpartsIn host workspace lookahead hint path.display

end Wayfinder.Lookup.ByName
