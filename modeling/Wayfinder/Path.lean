import Wayfinder.Text.Utf8

/-!
# Paths

Paths are bytes whose parts are divided by slashes.  They need not be text: where a path
is shown, what is no text is shown as U+FFFD.  Repeated slashes and parts that are a
single dot carry no meaning.  Nothing here looks at the files of a machine.

* `Path.ofText` is the path that a text spells, `Path.display` the text that shows a path.
* `Path.join` puts a path behind a base, `Path.parts` divides a path at its slashes.
* `Name` is what an entry of a directory can be called.
-/

namespace Wayfinder

/-- A path, in the bytes that the machine takes. -/
abbrev Path := List UInt8

namespace Path

/-- The byte that divides the parts of a path. -/
def slash : UInt8 := 0x2F

/-- The byte of a dot. -/
def dot : UInt8 := 0x2E

/-- The path that a text spells. -/
def ofText (text : String) : Path :=
  Text.Utf8.bytes text

/-- The text that shows a path. -/
def display (path : Path) : String :=
  Text.Utf8.decodeLossy path

/-- The parts between the slashes, empty ones included. -/
def parts (path : Path) : List (List UInt8) :=
  path.splitOn slash

/-- Whether a path starts at the root of the file tree. -/
def isAbsolute (path : Path) : Bool :=
  path.head? == some slash

/-- A path as seen from a base.  An absolute path stands for itself.  Exactly one slash is put
between the two unless the base already ends in one or is empty. -/
def join (base path : Path) : Path :=
  if isAbsolute path || base.isEmpty then path
  else if base.getLast? == some slash then base ++ path
  else base ++ slash :: path

/-- Whether a part of a path leads nowhere else. -/
def isIdle (part : List UInt8) : Bool :=
  part.isEmpty || part == [dot]

/-- Whether a part of a path leads to the directory above. -/
def leadsUp (part : List UInt8) : Bool :=
  part == [dot, dot]

/-- The parts that carry meaning. -/
def names (path : Path) : List (List UInt8) :=
  path.parts.filter fun part => !isIdle part

/-- The last part of a path, unless it leads upwards. -/
def fileName? (path : Path) : Option (List UInt8) :=
  match path.names.getLast? with
  | some name => if leadsUp name then none else some name
  | none => none

/-- The part of a name behind its last dot.  A dot at the very start of a name does not
count. -/
def extension? (name : List UInt8) : Option (List UInt8) :=
  let reversed := name.reverse
  let behind := (reversed.takeWhile (· != dot)).reverse
  match reversed.dropWhile (· != dot) with
  | _ :: _ :: _ => some behind
  | _ => none

/-- The longest name of a file, in bytes. -/
def nameLimit : Nat := 255

/-- The longest path that the machine takes, in bytes. -/
def pathLimit : Nat := 4095

/-- Whether an entry of a directory can be called by these bytes. -/
def isName (bytes : List UInt8) : Bool :=
  !isIdle bytes && !leadsUp bytes && !bytes.contains slash && !bytes.contains 0 &&
    bytes.length ≤ nameLimit

end Path

/-- The name of an entry of a directory. -/
structure Name where
  bytes : List UInt8
  isName : Path.isName bytes = true
deriving Repr, DecidableEq

/-- The name that bytes spell, if they can be a name. -/
def Name.ofBytes? (bytes : List UInt8) : Option Name :=
  if h : Path.isName bytes = true then some ⟨bytes, h⟩ else none

/-- The absolute path with the given names. -/
def Path.absolute (names : List Name) : Path :=
  slash :: [slash].intercalate (names.map Name.bytes)

end Wayfinder
