import Wayfinder.Lookup.ByName
import Wayfinder.Lookup.Gopls
import Wayfinder.Navigation
import Wayfinder.Settings

/-!
# The engine

Answers the requests that all front ends share: the outline of a document, its hints, and
navigation from a place.  Lines and columns count from zero.

An engine is made for a workspace that exists, which it names by its canonical path, so that
the names of documents compare reliably.  It holds no files: every request sees the machine
as it is then.
-/

namespace Wayfinder

/-! ## Requests and answers -/

/-- A document, given by its path or by its text. -/
structure DocumentRequest where
  path : Option String
  text : Option String
deriving Repr, DecidableEq

/-- A place in a file.  Without a column, the first hint on the line is meant. -/
structure NavigateRequest where
  path : String
  line : Nat
  column : Option Nat
deriving Repr, DecidableEq

/-- What an engine works on. -/
structure Health where
  workspace : String
  oracle : Oracle
  lookahead : Nat
deriving Repr, DecidableEq

/-- The hints of a document, with its name if it has one. -/
structure HintsAnswer where
  document : Option String
  hints : List Hint
deriving Repr, DecidableEq

/-- The outline of a document, with its name if it has one. -/
structure OutlineAnswer where
  document : Option String
  outline : Outline
deriving Repr, DecidableEq

/-- The hint at a place and what is offered for it. -/
structure NavigateAnswer where
  hint : Hint
  outcome : Outcome
deriving Repr, DecidableEq

/-! ## Engines -/

/-- An engine for one workspace. -/
structure Engine where
  /-- The settings, with the canonical path of the workspace. -/
  settings : Settings
deriving Repr, DecidableEq

namespace Engine

/-- The engine for the given settings, if the workspace exists. -/
def make (host : Host) (settings : Settings) : Except Failure Engine :=
  match host.canonical settings.workspace with
  | .ok workspace => .ok { settings := { settings with workspace := workspace } }
  | .error fault => .error (.noWorkspace settings.workspace.display fault)

/-- The workspace in which documents are named. -/
def workspace (engine : Engine) : Workspace :=
  Workspace.rootedAt engine.settings.workspace

/-- The lookup that the settings choose. -/
def lookup (engine : Engine) (host : Host) : Lookup :=
  match engine.settings.oracle with
  | .lexical =>
      Lookup.ByName.lookup host engine.settings.workspace engine.settings.lookahead
        engine.settings.includeTests
  | .gopls => Lookup.Gopls.lookup host engine.settings.workspace engine.settings.gopls

/-- Navigation in the workspace. -/
def navigator (engine : Engine) (host : Host) : Navigator :=
  { openDocument := engine.workspace.openDocument host
    lookup := engine.lookup host
    lookahead := engine.settings.lookahead }

/-- What the engine works on. -/
def health (engine : Engine) : Health :=
  { workspace := engine.settings.workspace.display
    oracle := engine.settings.oracle
    lookahead := engine.settings.lookahead }

/-- The name of a document of the workspace: the text that shows its canonical path. -/
def documentId (engine : Engine) (host : Host) (path : String) : Except Failure String :=
  let resolved := engine.workspace.resolve path
  match host.canonical resolved with
  | .ok path => .ok path.display
  | .error fault => .error (.noDocument resolved.display fault)

/-- The document of a request and its name.  A text stands for itself, under the path as
given; otherwise the path is read. -/
def load (engine : Engine) (host : Host) (request : DocumentRequest) :
    Except Failure (Option String × Document) :=
  match request.path, request.text with
  | path, some text => .ok (path, Document.ofText text)
  | some path, none => do
      let id ← engine.documentId host path
      let document ← engine.workspace.openDocument host id
      return (some id, document)
  | none, none => .error .nothingGiven

/-- The outline of a document. -/
def outline (engine : Engine) (host : Host) (request : DocumentRequest) :
    Except Failure OutlineAnswer := do
  let (name, document) ← engine.load host request
  return { document := name, outline := document.outline engine.settings.lookahead }

/-- The hints of a document. -/
def hints (engine : Engine) (host : Host) (request : DocumentRequest) :
    Except Failure HintsAnswer := do
  let (name, document) ← engine.load host request
  return { document := name, hints := document.hints engine.settings.lookahead }

/-- The name of the document of a request, and the hint at its place. -/
def hintFor (engine : Engine) (host : Host) (request : NavigateRequest) :
    Except Failure (String × Hint) := do
  let document ← engine.documentId host request.path
  match ← (engine.navigator host).hintAt document request.line request.column with
  | some hint => return (document, hint)
  | none => throw (.nothingThere request.path request.line)

/-- Navigates from a place. -/
def navigate (engine : Engine) (host : Host) (request : NavigateRequest) :
    Except Failure NavigateAnswer := do
  let (document, hint) ← engine.hintFor host request
  return { hint := hint, outcome := (engine.navigator host).activate document hint }

end Engine

end Wayfinder
