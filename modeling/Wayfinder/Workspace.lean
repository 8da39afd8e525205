import Wayfinder.Document
import Wayfinder.FileTree

/-!
# Workspaces

A workspace gives documents their paths: a relative path starts at its root, an absolute
path stands for itself.  It also knows the Go files below a directory.

* `Workspace.resolve` is the path of a document, `Workspace.openDocument` reads it.
* `goFiles` lists the Go files below a root, ordered part by part.  Directories that the
  Go tools ignore, and hidden ones, are not entered.
-/

namespace Wayfinder

/-- A place from which documents are named.  Without a root, relative paths are left to the
machine. -/
structure Workspace where
  root : Option Path
deriving Repr, DecidableEq

namespace Workspace

/-- The workspace with the given root. -/
def rootedAt (root : Path) : Workspace :=
  { root := some root }

/-- The path of a document, from its name. -/
def resolve (workspace : Workspace) (document : String) : Path :=
  match workspace.root with
  | some root => root.join (Path.ofText document)
  | none => Path.ofText document

/-- The document with the given name. -/
def openDocument (workspace : Workspace) (host : Host) (document : String) :
    Except Failure Document :=
  let path := workspace.resolve document
  match host.readText path with
  | .ok text => .ok (Document.ofText text)
  | .error fault => .error (.unreadable path.display fault)

end Workspace

/-! ## Go files -/

/-- Whether a directory with this name is not entered: hidden ones, those that start with an
underscore, and those kept for dependencies and test data. -/
def isIgnoredDirectory (name : Name) : Bool :=
  let shown := Path.display name.bytes
  shown.toList.head? == some '.' || shown.toList.head? == some '_' || shown == "vendor" ||
    shown == "testdata"

/-- Whether a path names a file of Go tests. -/
def isTestFile (path : Path) : Bool :=
  "_test.go".toList.isSuffixOf path.display.toList

/-- Whether a file with this name holds Go. -/
def isGoName (name : List UInt8) : Bool :=
  Path.extension? name == some (Path.ofText "go")

mutual

/-- The names, below a node, of all files outside of ignored directories.  A file has itself
below it, under no name. -/
def Node.filesBelow : Node → List (List Name)
  | .file _ => [[]]
  | .directory entries => Node.filesOfEntries entries

/-- The names of all files of the entries of a directory. -/
def Node.filesOfEntries : List (Name × Node) → List (List Name)
  | [] => []
  | (name, node) :: more =>
      (if node.isDirectory && isIgnoredDirectory name then []
        else node.filesBelow.map (name :: ·)) ++
        Node.filesOfEntries more

end

/-- The path of the file with the given names below a root. -/
def pathBelow (root : Path) (names : List Name) : Path :=
  names.foldl (fun path name => path.join name.bytes) root

/-- Whether a path names a file that belongs to the listing. -/
def isListed (includeTests : Bool) (path : Path) : Bool :=
  (path.fileName?.map isGoName).getD false && (includeTests || !isTestFile path)

/-- Whether the directories on the way to the file with the given names can be listed: the
longest of their paths, the last, is one that the machine takes. -/
def isReachable (root : Path) (names : List Name) : Bool :=
  (pathBelow root names.dropLast).length ≤ Path.pathLimit

/-- The paths of the Go files below a root, ordered part by part.  A root that is a file
stands for itself, and there is nothing below a root that does not exist. -/
def goFiles (host : Host) (root : Path) (includeTests : Bool) : List Path :=
  match host.node root with
  | .error _ => []
  | .ok node =>
      let names := node.filesBelow.filter fun names =>
        isReachable root names && isListed includeTests (pathBelow root names)
      (names.mergeSort fun a b => !decide (b.map Name.bytes < a.map Name.bytes)).map
        (pathBelow root)

end Wayfinder
