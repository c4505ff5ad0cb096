import JsonService.ErrorBody
import JsonService.Json.Fault
import JsonService.Request
import JsonService.Response
import JsonService.Task
import JsonService.Time
import JsonService.Uuid

/-!
# Handlers

A handler answers a request with a response or a failure. Whatever hands on a response records its status,
so that the outermost layer leaves the status that goes on the wire.
-/
namespace JsonService

/-- What a handler knows about a request beside the message itself. Models `Context`. -/
structure Context where
  /-- Names the request in logs and in its response. -/
  trace : Uuid
  arrived : Time

/-- The trace of the `n`-th request of a process. -/
def Context.traceOf (n : Nat) : Uuid := .fresh 1 n

/-- What a handler comes to. -/
abbrev Result := Except Failure Response

/-- Answers requests, for a service whose state is `σ`. Models `Handler`. -/
abbrev Handler (σ : Type) := Context → Request → Task σ Result

/-- Turns one handler into another. Models `Middleware`. -/
abbrev Layer (σ : Type) := Handler σ → Handler σ

def Context.traceField (ctx : Context) : String × Log.Value := ("trace_id", .text ctx.trace.render)

/-- A handler that records the status of the response it hands on. Models `FnHandler::call`. -/
def Handler.recorded (h : Handler σ) : Handler σ := fun ctx req => do
  match ← h ctx req with
  | .ok res =>
    Task.record res.status
    return .ok res
  | .error e => return .error e

/-- A handler within layers, the first one outermost. Models `compose`. -/
def Handler.within (layers : List (Layer σ)) (h : Handler σ) : Handler σ :=
  layers.foldr (fun layer next => Handler.recorded (layer next)) (Handler.recorded h)

/-- Responds with a JSON value, which may fail to have a text. A response of a status that never has
a body has none. Models `respond`. -/
def respond (value : Except String Json) (status : Status) : Task σ Result := do
  Task.record status
  if status.isBodiless then return .ok (.ofStatus status)
  match value with
  | .error reason => return .error (.ofJson (Json.repeated reason))
  | .ok v => return .ok ((({} : Response.Builder).withStatus status).json (Text.Utf8.bytes v.render))

/-- Models `status_response`. -/
def respondError (status : Status) (body : ErrorBody) : Task σ Response := do
  Task.record status
  return (({} : Response.Builder).withStatus status).json (Text.Utf8.bytes body.toJson.render)

/-- Responds to a failure as a client should see it. Models `error_response`. -/
def respondFailure (e : Failure) : Task σ Response := respondError e.status (.ofFailure e)

end JsonService
