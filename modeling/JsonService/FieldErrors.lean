import JsonService.Json.Document
import JsonService.Json.Printer

/-!
# Field errors

What is wrong with the fields of a payload, in the order in which they were checked.
-/
namespace JsonService

/-- A field of a payload that is not as it should be. Models `FieldError`. -/
structure FieldError where
  field : String
  error : String
  deriving DecidableEq, Repr

/-- Every failing field of a payload. Models `FieldErrors`. -/
abbrev FieldErrors := List FieldError

namespace FieldError

def toJson (e : FieldError) : Json := .object [("field", .text e.field), ("error", .text e.error)]

/-- Reads a field error: both members are required. -/
def record : Json.Document.Record FieldError where
  name := "FieldError"
  start := ⟨"", ""⟩
  fields :=
    [{ name := "field", read := (Json.Document.text "a string").map fun s e => { e with field := s } },
     { name := "error", read := (Json.Document.text "a string").map fun s e => { e with error := s } }]

end FieldError

namespace FieldErrors

/-- The plain JSON array of the errors. -/
def toJson (es : FieldErrors) : Json := .list (es.map FieldError.toJson)

/-- Reads an array of field errors. -/
def document : Json.Document FieldErrors := Json.Document.list FieldError.record.document

/-- The errors in one line. -/
def describe (es : FieldErrors) : String :=
  String.intercalate "; " (es.map fun e => s!"{e.field}: {e.error}")

end FieldErrors

end JsonService
