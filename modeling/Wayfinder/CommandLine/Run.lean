import Wayfinder.CommandLine.Request
import Wayfinder.Json.Printer
import Wayfinder.Report

/-!
# Carrying out commands

What the commands print.  Lines and columns count from one in listings and from zero in
JSON.
-/

namespace Wayfinder.CommandLine

/-- A text moved to the right end of a field. -/
def padLeft (width : Nat) (text : String) : String :=
  String.ofList (List.replicate (width - text.length) ' ') ++ text

/-- A text moved to the left end of a field. -/
def padRight (width : Nat) (text : String) : String :=
  text ++ String.ofList (List.replicate (width - text.length) ' ')

/-- A count from zero as a count from one. -/
def fromOne (count : Nat) : String :=
  toString (count + 1)

/-- The first and last line of a declaration. -/
def lineRange (first last : Nat) : String :=
  " (lines " ++ fromOne first ++ "-" ++ fromOne last ++ ")"

/-- Lines of output as one text. -/
def unlines (lines : List String) : String :=
  String.join (lines.map (· ++ "\n"))

/-- The listing of hints. -/
def listHints (answer : HintsAnswer) : List String :=
  match answer.hints with
  | [] => ["No interface or receiver methods found."]
  | hints =>
      hints.map fun hint =>
        let side :=
          match hint.side with
          | .interface => "implementations"
          | .receiver => "interfaces"
        padLeft 5 (fromOne hint.line) ++ ":" ++ padRight 4 (fromOne hint.startColumn) ++ " " ++
          hint.qualified ++ "  -> " ++ side

/-- The listing of one interface. -/
def listInterface (interface : Interface) : List String :=
  ("  " ++ interface.name ++ lineRange interface.startLine interface.endLine) ::
    interface.methods.map fun signature =>
      "    " ++ signature.name ++ lineRange signature.line signature.endLine

/-- The listing of an outline. -/
def listOutline (answer : OutlineAnswer) : List String :=
  let interfaces := answer.outline.interfaces
  let methods := answer.outline.receiverMethods
  ["Interfaces: " ++ toString interfaces.length] ++ interfaces.flatMap listInterface ++
    ["Receiver methods: " ++ toString methods.length] ++
    methods.map fun method =>
      "  " ++ method.receiverType ++ "." ++ method.name ++
        lineRange method.startLine method.endLine

/-- The listing of what navigation offers. -/
def listNavigation (answer : NavigateAnswer) : List String :=
  answer.hint.qualified ::
    match answer.outcome.message? with
    | some message => ["  " ++ message]
    | none =>
        answer.outcome.targets.map fun target =>
          "  " ++ target.label ++ "  " ++ target.location.document ++ ":" ++
            fromOne target.location.start.line ++ ":" ++
            fromOne target.location.start.character

/-- What is printed for an answer: a listing, or JSON on several lines. -/
def present (json : Bool) (listing : List String) (document : Json) : String :=
  unlines (if json then [document.pretty] else listing)

/-- A request to navigate, from a line and a column that count from one. -/
def navigateRequest (file : Path) (line : Nat) (column : Option Nat) :
    Except Failure NavigateRequest :=
  if line = 0 || column == some 0 then .error .notFromOne
  else .ok { path := file.display, line := line - 1, column := column.map (· - 1) }

/-- What a command prints.  The commands that serve print nothing here. -/
def Command.run (command : Command) (engine : Engine) (host : Host) : Except Failure String :=
  match command with
  | .hints file json => do
      let answer ← engine.hints host { path := some file.display, text := none }
      return present json (listHints answer) answer.toJson
  | .scan file json => do
      let answer ← engine.outline host { path := some file.display, text := none }
      return present json (listOutline answer) answer.toJson
  | .navigate file line column json => do
      let request ← navigateRequest file line column
      let answer ← engine.navigate host request
      return present json (listNavigation answer) answer.toJson
  | .serve _ => .ok ""
  | .mcp => .ok ""

/-- What a command line prints that asks for the given. -/
def Request.run (request : Request) (host : Host) : Except Failure String := do
  let engine ← Engine.make host request.settings
  request.command.run engine host

end Wayfinder.CommandLine
