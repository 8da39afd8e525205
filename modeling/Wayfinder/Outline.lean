import Wayfinder.Interface.Scan
import Wayfinder.Receiver

/-!
# Outlines and hints

An outline is everything a scan finds in a document.  A hint is a place on a method
name from which one can navigate: from an interface to the methods that implement
it, or from a method with a receiver to the interfaces that declare it.
-/

namespace Wayfinder

/-! ## Hints -/

/-- Which of the two sides of an implementation a method stands on. -/
inductive Side where
  /-- A signature of an interface. -/
  | interface
  /-- A method with a receiver. -/
  | receiver
deriving Repr, DecidableEq

/-- The side on which the counterparts of a method stand. -/
def Side.opposite : Side → Side
  | .interface => .receiver
  | .receiver => .interface

/-- A place on a method name from which one can navigate. -/
structure Hint where
  line : Nat
  /-- The first column of the name. -/
  startColumn : Nat
  /-- The column behind the name. -/
  endColumn : Nat
  method : String
  side : Side
  /-- The name of the interface, or the type of the receiver. -/
  context : String
deriving Repr, DecidableEq

namespace Hint

/-- The hint on a name that starts at a place. -/
def onName (line column : Nat) (name : String) (side : Side) (context : String) : Hint :=
  { line := line, startColumn := column, endColumn := column + name.length, method := name,
    side := side, context := context }

/-- The hint on the name of a signature of the interface with the given name. -/
def ofSignature (interface : String) (signature : Signature) : Hint :=
  onName signature.line signature.column signature.name .interface interface

/-- The hint on the name of a method with a receiver. -/
def ofReceiverMethod (method : ReceiverMethod) : Hint :=
  onName method.startLine method.column method.name .receiver method.receiverType

/-- Whether the name stands on the given place. -/
def covers (hint : Hint) (line column : Nat) : Bool :=
  hint.line == line && (hint.startColumn ≤ column && column < hint.endColumn)

/-- The method's name with its context. -/
def qualified (hint : Hint) : String :=
  hint.context ++ "." ++ hint.method

end Hint

/-! ## Outlines -/

/-- Everything a scan finds in a document. -/
structure Outline where
  interfaces : List Interface
  receiverMethods : List ReceiverMethod
deriving Repr, DecidableEq

namespace Outline

/-- The hints of the interfaces, then those of the methods with a receiver, each in source
order. -/
def hints (outline : Outline) : List Hint :=
  outline.interfaces.flatMap
      (fun interface => interface.methods.map (Hint.ofSignature interface.name)) ++
    outline.receiverMethods.map Hint.ofReceiverMethod

/-- The interface to which a line belongs. -/
def interfaceAt? (outline : Outline) (line : Nat) : Option Interface :=
  outline.interfaces.find? (·.contains line)

/-- Of two declarations the one that starts later, and the second if they start together. -/
def innermost (best : Option ReceiverMethod) (method : ReceiverMethod) : Option ReceiverMethod :=
  match best with
  | none => some method
  | some other => if other.startLine ≤ method.startLine then some method else some other

/-- The innermost method with a receiver to which a line belongs. -/
def receiverMethodAt? (outline : Outline) (line : Nat) : Option ReceiverMethod :=
  (outline.receiverMethods.filter (·.contains line)).foldl innermost none

end Outline

namespace Document

/-- Everything declared in a document. -/
def outline (document : Document) (lookahead : Nat) : Outline :=
  { interfaces := document.interfaces lookahead, receiverMethods := document.receiverMethods }

/-- Everything declared in a document, unless the signal is raised.  It is checked before each
line of the scan for interfaces, and then before each line of the scan for receivers. -/
def outlineUnless (document : Document) (lookahead : Nat) (signal : Signal) :
    Except Cancelled Outline := do
  let interfaces ← document.interfacesUnless lookahead signal 0
  let receiverMethods ← document.receiverMethodsUnless signal document.size
  return { interfaces := interfaces, receiverMethods := receiverMethods }

/-- The hints of a document. -/
def hints (document : Document) (lookahead : Nat) : List Hint :=
  (document.outline lookahead).hints

end Document

end Wayfinder
