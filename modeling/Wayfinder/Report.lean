import Wayfinder.Engine
import Wayfinder.Json

/-!
# Answers as JSON

The form in which answers are given to programs.  The members of each object stand in a
fixed order, and a value that is absent is null.
-/

namespace Wayfinder

/-- The word for a side. -/
def Side.name : Side → String
  | .interface => "interface_side"
  | .receiver => "receiver_side"

/-- A hint. -/
def Hint.toJson (hint : Hint) : Json :=
  .object
    [("anchor_line", .count hint.line), ("anchor_start_col", .count hint.startColumn),
      ("anchor_end_col", .count hint.endColumn), ("method_name", .text hint.method),
      ("kind", .text hint.side.name), ("context", .text hint.context)]

/-- A signature, without the name of its interface. -/
def Signature.toJson (signature : Signature) : Json :=
  .object
    [("name", .text signature.name), ("line", .count signature.line),
      ("column", .count signature.column), ("span_end_line", .count signature.endLine)]

/-- An interface. -/
def Interface.toJson (interface : Interface) : Json :=
  .object
    [("name", .text interface.name), ("start_line", .count interface.startLine),
      ("end_line", .count interface.endLine),
      ("methods", .array (interface.methods.map Signature.toJson))]

/-- A method with a receiver. -/
def ReceiverMethod.toJson (method : ReceiverMethod) : Json :=
  .object
    [("receiver_type", .text method.receiverType), ("receiver_name", .text method.receiverName),
      ("name", .text method.name), ("column", .count method.column),
      ("start_line", .count method.startLine), ("end_line", .count method.endLine)]

/-- A location, with its two ends side by side. -/
def Location.toJson (location : Location) : Json :=
  .object
    [("document", .text location.document), ("start_line", .count location.start.line),
      ("start_column", .count location.start.character), ("end_line", .count location.stop.line),
      ("end_column", .count location.stop.character)]

/-- A target. -/
def Target.toJson (target : Target) : Json :=
  .object
    [("label", .text target.label), ("detail", .text target.detail),
      ("location", target.location.toJson)]

/-- The word for an outcome. -/
def Outcome.name : Outcome → String
  | .jump _ => "jump"
  | .pick _ => "pick"
  | .notice _ => "notice"

/-- The message of a notice. -/
def Outcome.message? : Outcome → Option String
  | .notice message => some message
  | .jump _ => none
  | .pick _ => none

/-- What an engine works on. -/
def Health.toJson (health : Health) : Json :=
  .object
    [("workspace", .text health.workspace), ("oracle", .text health.oracle.name),
      ("lookahead_lines", .count health.lookahead)]

/-- The hints of a document. -/
def HintsAnswer.toJson (answer : HintsAnswer) : Json :=
  .object
    [("document", .optional .text answer.document),
      ("hints", .array (answer.hints.map Hint.toJson))]

/-- The outline of a document. -/
def OutlineAnswer.toJson (answer : OutlineAnswer) : Json :=
  .object
    [("document", .optional .text answer.document),
      ("interfaces", .array (answer.outline.interfaces.map Interface.toJson)),
      ("receiver_methods", .array (answer.outline.receiverMethods.map ReceiverMethod.toJson))]

/-- What navigation offers. -/
def NavigateAnswer.toJson (answer : NavigateAnswer) : Json :=
  .object
    [("hint", answer.hint.toJson), ("outcome", .text answer.outcome.name),
      ("targets", .array (answer.outcome.targets.map Target.toJson)),
      ("message", .optional .text answer.outcome.message?)]

end Wayfinder
