import Wayfinder.FileTree
import Wayfinder.Json

/-!
# Snapshots of file trees

A file tree written as a JSON object that maps the path of each file to its text.
-/

namespace Wayfinder

/-- The names in a path, if all of them can be names. -/
def Path.names? (path : Path) : Option (List Name) :=
  path.names.mapM Name.ofBytes?

/-- The tree with the given files. -/
def Node.ofFiles (files : List (List Name × String)) : Node :=
  files.foldl (fun tree (names, text) => tree.put names (.file text.toUTF8.toList))
    (.directory [])

/-- The names and the text of a file, from a member of an object. -/
def fileOfMember? (member : String × Json) : Option (List Name × String) := do
  let names ← (Path.ofText member.1).names?
  let text ← member.2.text?
  return (names, text)

/-- The tree that an object of paths and texts denotes. -/
def FileTree.ofJson? : Json → Option FileTree
  | .object members => do
      let files ← members.mapM fileOfMember?
      FileTree.ofNode? (Node.ofFiles files)
  | _ => none

/-- A machine that holds the given files, works in its root and has no programs. -/
def Host.ofTree (tree : FileTree) : Host :=
  { tree with workingDirectory := [], programs := fun _ => none }

end Wayfinder
