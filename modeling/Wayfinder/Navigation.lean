import Wayfinder.Lookup
import Wayfinder.Path

/-!
# Navigation

From a hint to the places one can go to.  A lookup is asked about the hint; its answer is
narrowed to places that make sense, each place gets a label, and the places are put in
order without repetition.  A lookup that fails becomes a notice.

* `Target` is a place one can go to, and `Outcome` what is offered: one place, a choice of
  places, or a notice.
* `Library` keeps the documents opened for one request, so that each is opened and scanned
  once.
* `Navigator.resolve` turns an answer into an outcome, and `Navigator.activate` asks first.
-/

namespace Wayfinder

/-! ## Targets -/

/-- A place one can go to. -/
structure Target where
  location : Location
  /-- The method with its receiver type or its interface. -/
  label : String
  /-- The file name and the line, from one. -/
  detail : String
deriving Repr, DecidableEq

/-- What is offered. -/
inductive Outcome where
  /-- The only place. -/
  | jump (target : Target)
  /-- Several places, in order. -/
  | pick (targets : List Target)
  /-- No place, and why. -/
  | notice (message : String)
deriving Repr, DecidableEq

/-- The places offered. -/
def Outcome.targets : Outcome → List Target
  | .jump target => [target]
  | .pick targets => targets
  | .notice _ => []

/-- The file name and the line, from one, of a location. -/
def Location.short (location : Location) : String :=
  (((Path.ofText location.document).fileName?.map Path.display).getD location.document) ++ ":" ++
    toString (location.start.line + 1)

/-! ## Opened documents -/

/-- A document with its outline. -/
structure Volume where
  document : Document
  outline : Outline
deriving Repr, DecidableEq

/-- The documents opened so far, under the names they were asked for, with `none` for those
that could not be opened. -/
structure Library where
  volumes : List (String × Option Volume)
deriving Repr, DecidableEq

namespace Library

/-- No document has been opened. -/
def empty : Library :=
  { volumes := [] }

/-- Opens and scans a document, if it can be opened. -/
def fetch (openDocument : String → Except Failure Document) (lookahead : Nat) (name : String) :
    Option Volume :=
  match openDocument name with
  | .ok document => some { document := document, outline := document.outline lookahead }
  | .error _ => none

/-- A document from the library, which is opened now if it was not before. -/
def request (openDocument : String → Except Failure Document) (lookahead : Nat)
    (library : Library) (name : String) : Option Volume × Library :=
  match library.volumes.lookup name with
  | some volume => (volume, library)
  | none =>
      let volume := fetch openDocument lookahead name
      (volume, { volumes := (name, volume) :: library.volumes })

end Library

/-! ## Narrowing and labels -/

/-- The target for a location that implements an interface method: labelled with the method
that is declared around it, or with the name asked for and the place. -/
def implementationTarget (volume : Option Volume) (method : String) (location : Location) :
    Target :=
  let around := volume.bind fun volume => volume.outline.receiverMethodAt? location.start.line
  { location := location
    label :=
      match around with
      | some declared => declared.receiverType ++ "." ++ declared.name
      | none => method ++ " (" ++ location.short ++ ")"
    detail := location.short }

/-- The target for a location that declares an interface method.  There is one only if the
location lies in an interface and its line does not start a function.  It is labelled with
the signature that starts on the line, or with the name asked for. -/
def interfaceTarget? (volume : Option Volume) (method : String) (location : Location) :
    Option Target := do
  let volume ← volume
  let line ← volume.document.line? location.start.line
  if startsWithFunc line.chars then none
  else
    let interface ← volume.outline.interfaceAt? location.start.line
    let name :=
      match interface.methods.find? (·.line == location.start.line) with
      | some signature => signature.name
      | none => method
    return {
      location := location
      label := interface.name ++ "." ++ name
      detail := location.short
    }

/-- Whether a location leads from an interface method back to its own line. -/
def Hint.isOwnPlace (hint : Hint) (document : String) (location : Location) : Bool :=
  hint.side == .interface && location.document == document && location.start.line == hint.line

/-- The target that a location gives for a hint, if it gives one. -/
def targetFor? (hint : Hint) (volume : Option Volume) (location : Location) : Option Target :=
  match hint.side with
  | .interface => some (implementationTarget volume hint.method location)
  | .receiver => interfaceTarget? volume hint.method location

/-! ## Order -/

/-- Whether a target may stand before another. -/
def Target.precedes (a b : Target) : Bool :=
  (a.location.order b.location).isLE

/-- Drops each target that has the location of the one before it. -/
def dropRepeats : List Target → List Target
  | [] => []
  | [target] => [target]
  | first :: second :: more =>
      if first.location = second.location then dropRepeats (first :: more)
      else first :: dropRepeats (second :: more)
termination_by targets => targets.length

/-- Targets in the order of their locations, each location once. -/
def arrange (targets : List Target) : List Target :=
  dropRepeats (targets.mergeSort Target.precedes)

/-! ## Navigators -/

/-- What navigation needs: documents, answers and the scan's lookahead. -/
structure Navigator where
  openDocument : String → Except Failure Document
  lookup : Lookup
  lookahead : Nat

namespace Navigator

/-- Everything declared in a document. -/
def outline (navigator : Navigator) (document : String) : Except Failure Outline := do
  return (← navigator.openDocument document).outline navigator.lookahead

/-- The hints of a document. -/
def hints (navigator : Navigator) (document : String) : Except Failure (List Hint) := do
  return (← navigator.outline document).hints

/-- The first hint on a line, or, with a column, the first whose name stands there. -/
def hintAt? (hints : List Hint) (line : Nat) (column : Option Nat) : Option Hint :=
  hints.find? fun hint =>
    match column with
    | some column => hint.covers line column
    | none => hint.line == line

/-- The hint at a place of a document. -/
def hintAt (navigator : Navigator) (document : String) (line : Nat) (column : Option Nat) :
    Except Failure (Option Hint) := do
  return hintAt? (← navigator.hints document) line column

/-- The targets that locations give, with each document opened once. -/
def collect (navigator : Navigator) (hint : Hint) : Library → List Location → List Target
  | _, [] => []
  | library, location :: more =>
      let (volume, library) :=
        library.request navigator.openDocument navigator.lookahead location.document
      (targetFor? hint volume location).toList ++ navigator.collect hint library more

/-- The targets that locations give for a hint in a document, in order. -/
def targets (navigator : Navigator) (document : String) (hint : Hint)
    (locations : List Location) : List Target :=
  arrange (navigator.collect hint .empty
    (locations.filter fun location => !hint.isOwnPlace document location))

/-- The notice for a hint that leads nowhere. -/
def nowhere (hint : Hint) : String :=
  match hint.side with
  | .interface => "No implementations found for " ++ hint.qualified
  | .receiver => "No interface declares " ++ hint.qualified

/-- What is offered for a hint, given the answer to its lookup. -/
def resolve (navigator : Navigator) (document : String) (hint : Hint)
    (found : Except Failure (List Location)) : Outcome :=
  match found with
  | .error failure =>
      .notice ("Lookup failed for " ++ hint.qualified ++ ": " ++ failure.report)
  | .ok locations =>
      match navigator.targets document hint locations with
      | [] => .notice (nowhere hint)
      | [target] => .jump target
      | targets => .pick targets

/-- Asks about a hint and offers what the answer gives. -/
def activate (navigator : Navigator) (document : String) (hint : Hint) : Outcome :=
  navigator.resolve document hint (navigator.lookup document hint.position)

end Navigator

end Wayfinder
