import Wayfinder.Lookup
import Wayfinder.Pattern
import Wayfinder.Text.Column
import Wayfinder.Text.Count
import Wayfinder.Text.Numeral
import Wayfinder.Workspace

/-!
# Lookup by gopls

Asks the `gopls` tool.  Its spans count lines and columns from one, and columns in bytes.

* `query` writes the span that is asked about.
* `parseSpan?` reads one span, `parseOutput` all spans of an answer.
* `lookup` runs the tool.
-/

namespace Wayfinder.Lookup.Gopls

/-! ## Spans -/

/-- A span as the tool writes it, but with lines and byte columns from zero. -/
structure ToolSpan where
  document : String
  line : Nat
  byteColumn : Nat
  endLine : Nat
  endByteColumn : Nat
deriving Repr, DecidableEq

/-- Digits of any script. -/
def digits : Pattern := .run Text.isDigit 1 .longest

/-- A path, a line and a column; then possibly the end column, with the end line before it.
Groups 1 to 5 are the path, line, column, end line and end column.  The path is as short as
possible. -/
def spanPattern : Pattern :=
  .sequence
    [.capture 1 (.run (· != '\n') 1 .shortest), .literal [':'], .capture 2 digits,
      .literal [':'], .capture 3 digits,
      .maybe
        (.sequence
          [.literal ['-'], .maybe (.seq (.capture 4 digits) (.literal [':'])) .longest,
            .capture 5 digits])
        .longest,
      .atEnd]

/-- A count from one as a count from zero. -/
def fromOne? : Nat → Option Nat
  | 0 => none
  | count + 1 => some count

/-- Reads one span.  The start must be a pair of counts from one.  An end line or column that
is missing or is no such count is that of the start. -/
def parseSpan? (text : List Char) : Option ToolSpan := do
  let reading ← spanPattern.read? text
  let document ← reading.group? 1
  let number (group : Nat) : Option Nat := do
    let span ← reading.group? group
    let count ← Text.readCount? (span.chars text)
    fromOne? count
  let line ← number 2
  let column ← number 3
  return {
    document := document.text text
    line := line
    byteColumn := column
    endLine := (number 4).getD line
    endByteColumn := (number 5).getD column
  }

/-- The position with a byte column, in a document that may not be readable.  Where the line
is not known the byte column stands for the character column. -/
def positionIn (document : Option Document) (line byteColumn : Nat) : Position :=
  let character :=
    match document.bind (·.line? line) with
    | some source => Text.charColumn source.chars byteColumn
    | none => byteColumn
  { line := line, character := character }

/-- The location that a span denotes. -/
def ToolSpan.location (span : ToolSpan) (document : Option Document) : Location :=
  { document := span.document
    start := positionIn document span.line span.byteColumn
    stop := positionIn document span.endLine span.endByteColumn }

/-! ## Questions and answers -/

/-- The span that is asked about, with the path as the workspace resolves it. -/
def query (host : Host) (workspace : Workspace) (document : String) (position : Position) :
    Except Failure String := do
  let source ← workspace.openDocument host document
  let byteColumn :=
    match source.line? position.line with
    | some line => Text.byteColumn line.chars position.character
    | none => position.character
  return (workspace.resolve document).display ++ ":" ++ toString (position.line + 1) ++ ":" ++
    toString (byteColumn + 1)

/-- The arguments with which the tool is run. -/
def arguments (span : String) : List String :=
  ["implementation", span]

/-- The locations in an answer of the tool, one on a line.  Lines that are no span are passed
over. -/
def parseOutput (host : Host) (workspace : Workspace) (output : String) : List Location :=
  (Text.splitLines output.toList).filterMap fun line => do
    let span ← parseSpan? (Text.trim line)
    return span.location (workspace.openDocument host span.document).toOption

/-- Asks the program with the given name about a position.  It is run in the root of the
workspace. -/
def lookup (host : Host) (root program : Path) : Lookup :=
  fun document position => do
    let workspace := Workspace.rootedAt root
    let span ← query host workspace document position
    match host.runIn root program (arguments span) with
    | .error fault => throw (.toolNotStarted program.display fault)
    | .ok result =>
        if result.success then
          return parseOutput host workspace (Text.Utf8.decodeLossy result.output)
        else
          let complaint := Text.trim (Text.Utf8.decodeLossy result.errors).toList
          throw (.toolFailed (String.ofList complaint))

end Wayfinder.Lookup.Gopls
