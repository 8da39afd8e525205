import Wayfinder.Bracket
import Wayfinder.Heading
import Wayfinder.Interface
import Wayfinder.Sweep
import Wayfinder.Text.Column

/-!
# Finding interfaces

A line scanner for interface declarations.  It never fails: text that is not
balanced yields whatever was recognised.

Outside an interface it waits for a line that opens one.  Inside, curly brackets
are counted until they balance.  A line of the body either continues the signature
that is being read, or may start one.  A signature passes through three stages:

* `parameters`: its round brackets are open;
* `between`: they closed with nothing behind them, and a result list may still
  start on one of the next lines.  Blank lines spend a budget;
* `results`: such a result list is open.

Comment lines are skipped altogether.

* `Draft` is a signature that is being read, `Body` an interface that is open, and
  `Scanner` the state of the sweep.
* `Probe` holds the operations that the scan is handed: to feed a text to a depth, to
  report a signature and to end a draft.  The scan is written for any of them, and
  `Probe.plain` are those of the program.
* `Document.interfaces` is the whole scan, `Document.interfacesUnless` the scan
  that can be cancelled.
-/

namespace Wayfinder

/-! ## A signature that is being read -/

/-- How far a signature has been read. -/
inductive Stage where
  | parameters
  /-- The parameters closed on line `closedAt`.  At most `budget` more blank lines may pass
  before a result list. -/
  | between (closedAt budget : Nat)
  | results
deriving Repr, DecidableEq

/-- A signature that is being read. -/
structure Draft where
  name : String
  line : Nat
  column : Nat
  parens : Depth
  stage : Stage
  /-- The last line that belongs to the signature. -/
  lastLine : Nat
deriving Repr, DecidableEq

/-- The line on which the signature ends if nothing more is read. -/
def Draft.endLine (draft : Draft) : Nat :=
  match draft.stage with
  | .between closedAt _ => closedAt
  | .parameters => draft.lastLine
  | .results => draft.lastLine

/-! ## An interface that is open -/

/-- An interface that is being read. -/
structure Body where
  name : String
  startLine : Nat
  braces : Depth
  /-- The number of blank lines that may separate parameters from results. -/
  lookahead : Nat
  methods : List Signature
  /-- The line and name of every signature reported. -/
  seen : List (Nat × String)
  draft : Option Draft
deriving Repr, DecidableEq

namespace Body

/-- Reports a signature that ends on the given line, unless it was reported before. -/
def report (body : Body) (draft : Draft) (endLine : Nat) : Body :=
  if (draft.line, draft.name) ∈ body.seen then { body with draft := none }
  else
    { body with
      methods := body.methods ++ [{
        owner := body.name
        name := draft.name
        line := draft.line
        column := draft.column
        endLine := max endLine draft.line
      }]
      seen := body.seen ++ [(draft.line, draft.name)]
      draft := none }

/-- Keeps a signature for the next line. -/
def keep (body : Body) (draft : Draft) : Body :=
  { body with draft := some draft }

end Body

/-! ## The sweep -/

/-- The state of a scan for interfaces. -/
structure Scanner where
  /-- The interfaces closed so far. -/
  found : List Interface
  /-- The interface that is open. -/
  body : Option Body
deriving Repr, DecidableEq

/-- Nothing has been read. -/
def Scanner.initial : Scanner :=
  { found := [], body := none }

/-- The operations of a scan that are handed in, with the effect that they have. -/
structure Probe (m : Type → Type) where
  /-- Feeds a text to a depth. -/
  feed : Counter m
  /-- Reports a signature that ends on a line. -/
  report : Body → Draft → Nat → m Body
  /-- The line on which a draft ends if its interface closes on a line. -/
  cut : Draft → Nat → m Nat

namespace Probe

/-- Feeds, reports and ends drafts, and does nothing else. -/
def plain : Probe Id where
  feed := Counter.plain
  report := Body.report
  cut draft endLine := pure (min draft.endLine endLine)

variable {m : Type → Type} [Monad m] (probe : Probe m)

/-- Waits for a result list, or reports the signature if no budget is left. -/
def await (body : Body) (draft : Draft) (closedAt budget : Nat) : m Body :=
  if budget = 0 then probe.report body draft closedAt
  else return body.keep { draft with stage := .between closedAt budget }

/-- Goes on after a line up to which the parameters have been read.  If they closed there,
code behind them completes the signature. -/
def afterParameters (body : Body) (draft : Draft) (line : Line) : m Body :=
  if !draft.parens.isBalanced then return body.keep draft
  else if (tailAfterLastParen line.chars).isEmpty then
    probe.await body draft line.index body.lookahead
  else probe.report body draft line.index

/-- Goes on after a line up to which the results have been read. -/
def afterResults (body : Body) (draft : Draft) (line : Line) : m Body :=
  if draft.parens.isBalanced then probe.report body draft line.index
  else return body.keep { draft with stage := .results }

/-- Reads a line into the signature, and tells whether the line belonged to it. -/
def resume (body : Body) (draft : Draft) (line : Line) : m (Body × Bool) :=
  match draft.stage with
  | .parameters => do
      let parens ← probe.feed draft.parens line.chars
      let draft := { draft with parens := parens, lastLine := line.index }
      return (← probe.afterParameters body draft line, true)
  | .results => do
      let parens ← probe.feed draft.parens line.chars
      let draft := { draft with parens := parens, lastLine := line.index }
      return (← probe.afterResults body draft line, true)
  | .between closedAt budget =>
      if line.isBlank then
        return (← probe.await body draft closedAt (budget - 1), true)
      else if line.trimmed.head? = some '(' then do
        let parens ← probe.feed.ofParens line.chars
        let draft := { draft with parens := parens, lastLine := line.index }
        return (← probe.afterResults body draft line, true)
      else return (← probe.report body draft closedAt, false)

/-- The signature that starts on a line, if one does, with its round brackets counted to the
end of the line. -/
def draftOfLine? (line : Line) : m (Option Draft) :=
  match (Heading.signature.read? line.chars).bind (·.group? 1) with
  | none => return none
  | some name => do
      let parens ← probe.feed.ofParens line.chars
      return some {
        name := name.text line.chars
        line := line.index
        column := Text.charColumn line.chars (name.byteStart line.chars)
        parens := parens
        stage := .parameters
        lastLine := line.index
      }

/-- Starts a signature on a line, if the line holds the start of one. -/
def begin (body : Body) (line : Line) : m Body := do
  match ← probe.draftOfLine? line with
  | some draft => probe.afterParameters body draft line
  | none => return body

/-- Reads a line for signatures. -/
def readSignatures (body : Body) (line : Line) : m Body :=
  match body.draft with
  | none => probe.begin body line
  | some draft => do
      match ← probe.resume body draft line with
      | (next, true) => return next
      | (next, false) => probe.begin next line

/-- Reads one line of the body. -/
def read (body : Body) (line : Line) : m Body := do
  let next ← probe.readSignatures body line
  let braces ← probe.feed next.braces line.chars
  return { next with braces := braces }

/-- Closes the interface.  A signature that is still being read ends where it stands. -/
def close (body : Body) (endLine : Nat) : m Interface := do
  let body ←
    match body.draft with
    | some draft => do probe.report body draft (← probe.cut draft endLine)
    | none => pure body
  return { name := body.name, startLine := body.startLine, endLine := endLine,
           methods := body.methods }

/-- The interface that a line opens, if it opens one. -/
def bodyOfLine? (lookahead : Nat) (line : Line) : m (Option Body) :=
  match (Heading.interface.read? line.chars).bind (·.group? 1) with
  | none => return none
  | some name => do
      let braces ← probe.feed.ofBraces line.chars
      return some {
        name := name.text line.chars
        startLine := line.index
        braces := braces
        lookahead := lookahead
        methods := []
        seen := []
        draft := none
      }

/-- Closes an interface behind a line if its curly brackets balance, and keeps it otherwise. -/
def settle (scanner : Scanner) (body : Body) (line : Line) : m Scanner := do
  if body.braces.isBalanced then
    return { found := scanner.found ++ [← probe.close body line.index], body := none }
  else return { scanner with body := some body }

/-- Reads one line. -/
def step (lookahead : Nat) (scanner : Scanner) (line : Line) : m Scanner :=
  if line.isComment then return scanner
  else
    match scanner.body with
    | some body => do probe.settle scanner (← probe.read body line) line
    | none => do
        match ← probe.bodyOfLine? lookahead line with
        | some body => probe.settle scanner body line
        | none => return scanner

/-- The interfaces found in a document of the given size.  One that is still open is closed
at the last line. -/
def finish (scanner : Scanner) (size : Nat) : m (List Interface) :=
  match scanner.body with
  | some body => return scanner.found ++ [← probe.close body (size - 1)]
  | none => return scanner.found

end Probe

namespace Scanner

/-- Reads one line. -/
def step (lookahead : Nat) (scanner : Scanner) (line : Line) : Scanner :=
  Id.run (Probe.plain.step lookahead scanner line)

/-- The interfaces found in a document of the given size. -/
def finish (scanner : Scanner) (size : Nat) : List Interface :=
  Id.run (Probe.plain.finish scanner size)

end Scanner

namespace Document

/-- The interfaces declared in a document, in source order. -/
def interfaces (document : Document) (lookahead : Nat) : List Interface :=
  (sweep (Scanner.step lookahead) Scanner.initial document.lines).finish document.size

/-- The interfaces declared in a document, unless the signal is raised at a check, the first
of which has number `check`. -/
def interfacesUnless (document : Document) (lookahead : Nat) (signal : Signal) (check : Nat) :
    Except Cancelled (List Interface) := do
  let scanner ←
    sweepUnless (Scanner.step lookahead) signal check Scanner.initial document.lines
  return scanner.finish document.size

end Document

end Wayfinder
