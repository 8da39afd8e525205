import Wayfinder.Failure
import Wayfinder.Path

/-!
# File trees

The files and directories of a machine, as a tree, and the rules by which a path is
followed through it.  There are no symbolic links.

* `FileTree` is a tree that a machine can hold: its root is a directory, no directory has
  two entries of one name, and no path in it is longer than the machine takes.
* `Node.follow` follows the parts of a path as given.  A part can be taken only from a
  directory, `..` leads to the directory above, and the root is above itself.
* `Node.resolve` names the node that a path leads to.  It asks about one name at a time.
* `Host` is what a machine offers: its file tree, the directory from which relative paths
  start, and the programs it can run.
* `Host.readText`, `Host.canonical` read a file and name it by its one absolute path.

A name and a path that is handed to the machine have greatest lengths.  A path that is
resolved may be of any length, as only the names found so far are handed over.
-/

namespace Wayfinder

/-- A file or a directory. -/
inductive Node where
  | file (content : List UInt8)
  | directory (entries : List (Name × Node))
deriving Inhabited

namespace Node

/-- Whether a node is a directory. -/
def isDirectory : Node → Bool
  | .directory _ => true
  | .file _ => false

/-- The entries of a directory, none for a file. -/
def entries : Node → List (Name × Node)
  | .directory entries => entries
  | .file _ => []

/-- The node below another with the given names. -/
def get? : Node → List Name → Option Node
  | node, [] => some node
  | .file _, _ :: _ => none
  | .directory entries, name :: more =>
      match entries.lookup name with
      | some node => get? node more
      | none => none

/-- Goes from the directory with the names `here` to one of its entries. -/
def enter (root : Node) (here : List Name) (part : List UInt8) : Except OsFault (List Name) :=
  match root.get? here with
  | none => .error .notFound
  | some (.file _) => .error .notADirectory
  | some (.directory entries) =>
      if part.length > Path.nameLimit then .error .nameTooLong
      else
        match Name.ofBytes? part with
        | some name =>
            if (entries.lookup name).isSome then .ok (here ++ [name]) else .error .notFound
        | none => .error .notFound

/-- Whether the node with the given names is a directory. -/
def isDirectoryAt (root : Node) (names : List Name) : Bool :=
  ((root.get? names).map isDirectory).getD false

/-- Follows the parts of a path from the node with the names `here`, and gives the names of
the node reached.  Every part, also an idle one, needs a directory. -/
def follow (root : Node) : List Name → List (List UInt8) → Except OsFault (List Name)
  | here, [] => .ok here
  | here, part :: more =>
      if Path.isIdle part || Path.leadsUp part then
        if root.isDirectoryAt here then
          follow root (if Path.isIdle part then here else here.dropLast) more
        else .error .notADirectory
      else do
        let there ← root.enter here part
        follow root there more

/-- Whether the parts behind a name need it to be a directory: they end without a further
name, or lead up again. -/
def needsDirectory (parts : List (List UInt8)) : Bool :=
  match parts.dropWhile Path.isIdle with
  | [] => !parts.isEmpty
  | part :: _ => Path.leadsUp part

/-- Follows the parts of a path from the node with the names `here`, where each name is asked
for by its absolute path. -/
def resolve (root : Node) : List Name → List (List UInt8) → Except OsFault (List Name)
  | here, [] => .ok here
  | here, part :: more =>
      if Path.isIdle part then resolve root here more
      else if Path.leadsUp part then resolve root here.dropLast more
      else if (Path.join (Path.absolute here) part).length > Path.pathLimit then
        .error .nameTooLong
      else do
        let there ← root.enter here part
        if needsDirectory more && !root.isDirectoryAt there then throw .notADirectory
        else resolve root there more

/-! ## Changing a tree -/

/-- The entries with one more, in place of an entry of the same name. -/
def putEntry (name : Name) (node : Node) : List (Name × Node) → List (Name × Node)
  | [] => [(name, node)]
  | (other, old) :: more =>
      if other == name then (name, node) :: more else (other, old) :: putEntry name node more

/-- A tree with a node put at the given names.  Missing directories are made, and a file in
the way gives place to a directory. -/
def put : Node → List Name → Node → Node
  | _, [], node => node
  | tree, name :: more, node =>
      let below := (tree.entries.lookup name).getD (.directory [])
      .directory (putEntry name (below.put more node) tree.entries)

/-- A tree with a directory at the given names, unless a node stands there. -/
def makeDirectory (tree : Node) (names : List Name) : Node :=
  if (tree.get? names).isSome then tree else tree.put names (.directory [])

/-- A tree without the node at the given names. -/
def remove : Node → List Name → Node
  | tree, [] => tree
  | tree, [name] => .directory (tree.entries.filter fun entry => entry.1 != name)
  | tree, name :: more =>
      match tree.entries.lookup name with
      | some below => .directory (putEntry name (below.remove more) tree.entries)
      | none => tree

/-! ## Trees of a machine -/

mutual

/-- Whether no directory below a node, whose own path has the given length, has two entries of
one name, and the machine takes the paths of all nodes below. -/
def isRegular (length : Nat) : Node → Bool
  | .file _ => true
  | .directory entries => areRegular length entries

/-- The same for the entries of a directory. -/
def areRegular (length : Nat) : List (Name × Node) → Bool
  | [] => true
  | (name, node) :: more =>
      (more.lookup name).isNone && length + 1 + name.bytes.length ≤ Path.pathLimit &&
        node.isRegular (length + 1 + name.bytes.length) && areRegular length more

end

end Node

/-- A tree that a machine can hold. -/
structure FileTree where
  root : Node
  isDirectory : root.isDirectory = true
  isRegular : root.isRegular 0 = true

/-- The tree below a node, if a machine can hold it. -/
def FileTree.ofNode? (root : Node) : Option FileTree :=
  if h : root.isDirectory = true ∧ root.isRegular 0 = true then some ⟨root, h.1, h.2⟩ else none

/-- The tree without files. -/
def FileTree.empty : FileTree :=
  ⟨.directory [], rfl, rfl⟩

/-! ## Machines -/

/-- What a program left behind. -/
structure ToolOutput where
  success : Bool
  output : List UInt8
  errors : List UInt8

/-- What a machine offers. -/
structure Host extends FileTree where
  /-- The directory from which relative paths start. -/
  workingDirectory : List Name
  /-- The programs that can be run, by the names or paths under which they are called, and
  what they leave behind for given arguments.  No file of the tree is a program. -/
  programs : Path → Option (List String → ToolOutput)

namespace Host

/-- The directory from which a path starts. -/
def start (host : Host) (path : Path) : List Name :=
  if path.isAbsolute then [] else host.workingDirectory

/-- Refuses what is no path. -/
def checkPath (path : Path) : Except OsFault Unit :=
  if path.contains 0 then .error .zeroInPath
  else if path.isEmpty then .error .notFound
  else .ok ()

/-- The one absolute path without detours of the node that a path leads to. -/
def canonical (host : Host) (path : Path) : Except OsFault Path := do
  checkPath path
  let names ← host.root.resolve (host.start path) path.parts
  return Path.absolute names

/-- The names of the node that the machine reaches by a path. -/
def locate (host : Host) (path : Path) : Except OsFault (List Name) := do
  checkPath path
  if path.length > Path.pathLimit then throw .nameTooLong
  else host.root.follow (host.start path) path.parts

/-- The node that the machine reaches by a path. -/
def node (host : Host) (path : Path) : Except OsFault Node := do
  let names ← host.locate path
  match host.root.get? names with
  | some node => return node
  | none => throw .notFound

/-- The text of the file that a path leads to. -/
def readText (host : Host) (path : Path) : Except OsFault String := do
  match ← host.node path with
  | .directory _ => throw .isADirectory
  | .file content =>
      match Text.Utf8.decode? content with
      | some text => return text
      | none => throw .notUtf8

/-! ## Running programs -/

/-- Whether a program or an argument holds the byte that ends the parts of a call. -/
def holdsZero (program : Path) (arguments : List String) : Bool :=
  program.contains 0 || arguments.any fun argument => argument.toList.contains '\x00'

/-- The machine with another directory from which relative paths start. -/
def workingIn (host : Host) (directory : List Name) : Host :=
  { host with workingDirectory := directory }

/-- Why a program that cannot be run is not started.  One that is called by a path may stand
there but be no program.  One that is called by a name is looked for in directories of
programs, where a dot and two dots stand for directories. -/
def startFault (host : Host) (program : Path) : OsFault :=
  if program.contains Path.slash then
    match host.locate program with
    | .ok _ => .permissionDenied
    | .error fault => fault
  else if program == [Path.dot] || Path.leadsUp program then .permissionDenied
  else if program.length > Path.nameLimit then .nameTooLong
  else .notFound

/-- Runs a program with arguments in a directory.  The directory is entered before the program
is looked for. -/
def runIn (host : Host) (directory program : Path) (arguments : List String) :
    Except OsFault ToolOutput := do
  if holdsZero program arguments then throw .zeroInCall
  else
    let here ← host.locate directory
    if !host.root.isDirectoryAt here then throw .notADirectory
    else
      match host.programs program with
      | some run => return run arguments
      | none => throw ((host.workingIn here).startFault program)

end Host

end Wayfinder
