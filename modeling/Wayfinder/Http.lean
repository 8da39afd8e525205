import Wayfinder.MediaType
import Wayfinder.Report
import Wayfinder.Request
import Wayfinder.Text.Column

/-!
# Answers over HTTP

How a request is answered: by its path, its method, its media type and its body, in this
order.

A request with the method `OPTIONS` is always allowed, since pages of any origin may use
the program.  `HEAD` is answered where `GET` is, without a body.
-/

namespace Wayfinder.Http

/-- A request. -/
structure Request where
  method : String
  /-- The path with its query, behind an origin if one is given. -/
  target : String
  contentType : Option String
  body : String
deriving Repr, DecidableEq

/-- The outcome of a request. -/
inductive Status where
  | ok
  | badRequest
  | notFound
  | methodNotAllowed
  | tooLarge
  | unsupportedMedia
  | unprocessable
deriving Repr, DecidableEq

/-- The number of an outcome. -/
def Status.code : Status → Nat
  | .ok => 200
  | .badRequest => 400
  | .notFound => 404
  | .methodNotAllowed => 405
  | .tooLarge => 413
  | .unsupportedMedia => 415
  | .unprocessable => 422

/-- A response.  Only answers in JSON have a body. -/
structure Response where
  status : Status
  body : Option Json := none

/-- What can be asked for. -/
inductive Route where
  | health
  | hints
  | scan
  | navigate
deriving Repr, DecidableEq

/-- What a path asks for. -/
def Route.ofPath? (path : String) : Option Route :=
  if path == "/health" then some .health
  else if path == "/hints" then some .hints
  else if path == "/scan" then some .scan
  else if path == "/navigate" then some .navigate
  else none

/-- The text behind the first occurrence of `://`. -/
def behindScheme : List Char → Option (List Char)
  | [] => none
  | ':' :: '/' :: '/' :: rest => some rest
  | _ :: rest => behindScheme rest

/-- The path of a target: what stands before the query, behind the origin. -/
def Request.path (request : Request) : String :=
  let target := request.target.toList.takeWhile fun c => c != '?' && c != '#'
  match target with
  | '/' :: _ => String.ofList target
  | _ =>
      match behindScheme target with
      | some rest => String.ofList (rest.dropWhile (· != '/'))
      | none => ""

/-- Whether a request says that its body is JSON. -/
def Request.isJson (request : Request) : Bool :=
  (request.contentType.bind MediaType.parse?).any MediaType.isJson

/-- The greatest size of a body in bytes. -/
def bodyLimit : Nat := 2 * 1024 * 1024

/-- The answer to a request that could be read. -/
def reply {α : Type} (toJson : α → Json) : Except Failure α → Response
  | .ok answer => { status := .ok, body := some (toJson answer) }
  | .error failure =>
      { status := .badRequest, body := some (.object [("error", .text failure.message)]) }

/-- Reads the body of a request and answers it. -/
def withBody {α β : Type} (request : Request) (read : String → Except Json.Fault α)
    (handle : α → Except Failure β) (toJson : β → Json) : Response :=
  if !request.isJson then { status := .unsupportedMedia }
  else if bodyLimit < Text.byteSize request.body.toList then { status := .tooLarge }
  else
    match read request.body with
    | .ok asked => reply toJson (handle asked)
    | .error .malformed => { status := .badRequest }
    | .error .mismatch => { status := .unprocessable }

/-- The methods that a route takes. -/
def Route.methods : Route → List String
  | .health => ["GET", "HEAD"]
  | _ => ["POST"]

/-- Answers a request that a route takes. -/
def Route.respond (route : Route) (engine : Engine) (host : Host) (request : Request) : Response :=
  match route with
  | .health =>
      if request.method == "HEAD" then { status := .ok }
      else { status := .ok, body := some engine.health.toJson }
  | .hints => withBody request DocumentRequest.read (engine.hints host) HintsAnswer.toJson
  | .scan => withBody request DocumentRequest.read (engine.outline host) OutlineAnswer.toJson
  | .navigate => withBody request NavigateRequest.read (engine.navigate host) NavigateAnswer.toJson

/-- Answers a request. -/
def respond (engine : Engine) (host : Host) (request : Request) : Response :=
  if request.method == "OPTIONS" then { status := .ok }
  else
    match Route.ofPath? request.path with
    | none => { status := .notFound }
    | some route =>
        if route.methods.contains request.method then route.respond engine host request
        else { status := .methodNotAllowed }

end Wayfinder.Http
