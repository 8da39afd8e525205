import Wayfinder.Engine
import Wayfinder.Json.Record

/-!
# Requests in JSON

The records in which programs put their requests, and the record of the scan's options.
-/

namespace Wayfinder

namespace DocumentRequest

/-- The fields of a request about a document. -/
def fields : List Json.Field :=
  [⟨"path", .text, false⟩, ⟨"text", .text, false⟩]

/-- The request with the given fields. -/
def ofValues? : List Json.FieldValue → Option DocumentRequest
  | [path, text] => some { path := path.text?, text := text.text? }
  | _ => none

/-- Reads a request from a text. -/
def read (body : String) : Except Json.Fault DocumentRequest := do
  match ofValues? (← Json.readRecord fields body.toList) with
  | some request => return request
  | none => throw .mismatch

/-- The request that a value denotes. -/
def ofJson? (json : Json) : Option DocumentRequest :=
  (Json.decodeRecord? fields json).bind ofValues?

end DocumentRequest

namespace NavigateRequest

/-- The fields of a request to navigate. -/
def fields : List Json.Field :=
  [⟨"path", .text, true⟩, ⟨"line", .count, true⟩, ⟨"column", .count, false⟩]

/-- The request with the given fields. -/
def ofValues? : List Json.FieldValue → Option NavigateRequest
  | [.text path, .count line, column] =>
      some { path := path, line := line, column := column.count? }
  | _ => none

/-- Reads a request from a text. -/
def read (body : String) : Except Json.Fault NavigateRequest := do
  match ofValues? (← Json.readRecord fields body.toList) with
  | some request => return request
  | none => throw .mismatch

/-- The request that a value denotes. -/
def ofJson? (json : Json) : Option NavigateRequest :=
  (Json.decodeRecord? fields json).bind ofValues?

end NavigateRequest

/-- The lookahead that a record of scan options denotes.  It has one field, which may be left
out, also from an array. -/
def lookaheadOfJson? : Json → Option Nat
  | .object members =>
      match members.lookup "lookahead_lines" with
      | some value => value.count?
      | none => some defaultLookahead
  | .array [] => some defaultLookahead
  | .array [value] => value.count?
  | _ => none

end Wayfinder
