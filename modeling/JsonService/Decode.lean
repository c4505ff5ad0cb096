import JsonService.Failure
import JsonService.Json.Reader
import JsonService.Json.Shape

/-!
# Decoding payloads

A body is read as JSON, loses the null members of its objects, is given a shape, and is validated.
-/
namespace JsonService

/-- A type of payload: its shape and the failing fields of a value. Models `Validate`. -/
structure Payload (α : Type) where
  shape : Json.Shape α
  validate : α → FieldErrors := fun _ => []

/-- A body that is no payload of the type asked for. Models `undecodable`. -/
def undecodable (reason : String) : Failure := .badRequest s!"unable to decode payload: {reason}"

/-- The payload of a body, or why there is none. Models `decode`. -/
def Payload.decode (p : Payload α) (body : List UInt8) : Except Failure α :=
  match Json.parse body with
  | .error reason => .error (undecodable reason)
  | .ok v =>
    match p.shape v.stripNulls with
    | .error m => .error (undecodable m.message)
    | .ok a =>
      match p.validate a with
      | [] => .ok a
      | fields => .error (.validation fields)

end JsonService
