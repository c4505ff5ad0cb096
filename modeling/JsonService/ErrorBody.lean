import JsonService.Failure

/-!
# Error bodies

The JSON body of a response that reports a failure, and what of a failure it tells the client.
-/
namespace JsonService

/-- Models `ErrorResponse`. -/
structure ErrorBody where
  error : String
  fields : Option FieldErrors := none
  deriving DecidableEq, Repr

namespace ErrorBody

/-- The JSON object of a body; without fields it has no such member. -/
def toJson (b : ErrorBody) : Json :=
  .object <| ("error", .text b.error) :: match b.fields with
    | some fields => [("fields", fields.toJson)]
    | none => []

/-- Reads a body: the error is required, the fields are not. -/
def record : Json.Document.Record ErrorBody where
  name := "ErrorResponse"
  start := { error := "" }
  fields :=
    [{ name := "error", read := (Json.Document.text "a string").map fun s b => { b with error := s } },
     { name := "fields", absence := .defaulted
       read := (Json.Document.optional FieldErrors.document).map fun fs b => { b with fields := fs } }]

/-- Reads a body from its text. -/
def parse (bs : List UInt8) : Except String ErrorBody := Json.Document.parse record.document bs

/-- The body for a status alone. -/
def ofStatus (s : Status) : ErrorBody := { error := s.reason }

/-- What the client is told. Only trusted failures show their message; of the others it learns no
more than the status. Models `error_response`. -/
def ofFailure (e : Failure) : ErrorBody :=
  match e with
  | .validation (f :: fs) => { error := "data validation error", fields := some (f :: fs) }
  | .notFound m | .invalidId m | .request _ m => { error := m }
  | .validation [] | .unexpected _ | .shutdown _ => ofStatus e.status

end ErrorBody

end JsonService
