import Wayfinder.Report
import Wayfinder.Request

/-!
# Tools

What an assistant can call: the tools with their descriptions, and the reply to a call.
-/

namespace Wayfinder

/-- What an assistant is told about the tools as a whole. -/
def Tool.instructions : String :=
  "Navigate between Go interface methods and the receiver methods implementing them."

/-- A tool. -/
inductive Tool where
  | navigate
  | scanDocument
  | scanHints
deriving Repr, DecidableEq

/-- Why a call is refused. -/
inductive Tool.Refusal where
  /-- The arguments are no object, so that the message is no call. -/
  | notACall
  /-- There is no such tool, or the arguments do not fit it. -/
  | invalid
deriving Repr, DecidableEq

/-- The reply to a call. -/
inductive Tool.Reply where
  | refused (refusal : Tool.Refusal)
  /-- The tool failed. -/
  | failed (message : String)
  | answered (answer : Json)

namespace Tool

/-- All tools, ordered by name. -/
def all : List Tool :=
  [.navigate, .scanDocument, .scanHints]

/-- The name by which a tool is called. -/
def name : Tool → String
  | .navigate => "navigate"
  | .scanDocument => "scan_document"
  | .scanHints => "scan_hints"

/-- What a tool does. -/
def description : Tool → String
  | .navigate =>
      "Go to implementation (from an interface method) or to interface (from a receiver method)" ++
        " at a 0-based line/column of a Go file."
  | .scanDocument =>
      "List interface blocks with their method signatures and receiver methods in a Go document."
  | .scanHints =>
      "List navigation hints (interface methods and receiver methods) in a Go file or inline Go" ++
        " text."

/-- The tool with the given name. -/
def ofName? (name : String) : Option Tool :=
  all.find? (·.name == name)

/-- The code of a refusal. -/
def Refusal.code : Refusal → Int
  | .notACall => -32601
  | .invalid => -32602

/-- The reply to a call whose arguments have been read. -/
def reply {α : Type} (toJson : α → Json) : Except Failure α → Reply
  | .ok answer => .answered (toJson answer)
  | .error failure => .failed failure.message

/-- Reads the arguments of a call and runs the tool. -/
def callWith {α β : Type} (ofJson? : Json → Option α) (handle : α → Except Failure β)
    (toJson : β → Json) (arguments : Json) : Reply :=
  match ofJson? arguments with
  | some asked => reply toJson (handle asked)
  | none => .refused .invalid

/-- Runs a tool. -/
def call (tool : Tool) (engine : Engine) (host : Host) (arguments : Json) : Reply :=
  match tool with
  | .navigate =>
      callWith NavigateRequest.ofJson? (engine.navigate host) NavigateAnswer.toJson arguments
  | .scanDocument =>
      callWith DocumentRequest.ofJson? (engine.outline host) OutlineAnswer.toJson arguments
  | .scanHints =>
      callWith DocumentRequest.ofJson? (engine.hints host) HintsAnswer.toJson arguments

/-- The arguments of a call as an object.  No arguments are the same as an empty object. -/
def argumentsOf? : Json → Option Json
  | .null => some (.object [])
  | .object members => some (.object members)
  | _ => none

/-- Runs the tool with the given name.  Whether the message is a call at all is settled before
the tool is looked for. -/
def callByName (name : String) (engine : Engine) (host : Host) (arguments : Json) : Reply :=
  match argumentsOf? arguments, ofName? name with
  | none, _ => .refused .notACall
  | some _, none => .refused .invalid
  | some members, some tool => tool.call engine host members

end Tool

end Wayfinder
