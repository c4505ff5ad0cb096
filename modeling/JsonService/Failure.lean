import JsonService.FieldErrors
import JsonService.Http.Status

/-!
# Failures

What a handler returns in place of a response, and what is left to say about it: a message, a status, and
whether the process should stop.
-/
namespace JsonService

/-- Why there is no response. Models `Error`. -/
inductive Failure where
  /-- The payload has failing fields. -/
  | validation (fields : FieldErrors)
  | notFound (message : String)
  | invalidId (message : String)
  /-- A failure whose message is safe to show to the client. -/
  | request (status : Status) (message : String)
  | unexpected (message : String)
  /-- The process can no longer serve requests. -/
  | shutdown (reason : String)
  deriving DecidableEq

namespace Failure

/-- A request that the client has to mend. -/
def badRequest (message : String) : Failure := .request .badRequest message

/-- A value that could not be written as JSON. -/
def ofJson (message : String) : Failure := .unexpected s!"json: {message}"

/-- What the failure is, in one line. -/
def message : Failure → String
  | .validation fields => s!"data validation error: {FieldErrors.describe fields}"
  | .notFound m | .invalidId m | .request _ m | .unexpected m => m
  | .shutdown reason => s!"shutdown requested: {reason}"

/-- The status that the failure is answered with. A validation without a failing field is the fault
of the server. Models `Error::status`. -/
def status : Failure → Status
  | .validation [] => .internalError
  | .validation (_ :: _) => .badRequest
  | .notFound _ => .notFound
  | .invalidId _ => .badRequest
  | .request s _ => s
  | .unexpected _ => .internalError
  | .shutdown _ => .internalError

/-- Whether the process should stop. Models `Error::is_shutdown`. -/
def isShutdown : Failure → Bool
  | .shutdown _ => true
  | _ => false

end Failure

/-- Passes if nothing failed. Models `FieldErrors::into_result`. -/
def FieldErrors.result (es : FieldErrors) : Except Failure Unit :=
  if es.isEmpty then .ok () else .error (.validation es)

end JsonService
