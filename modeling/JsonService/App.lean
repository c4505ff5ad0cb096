import JsonService.Http.Body
import JsonService.Layers
import JsonService.Route.Table
import JsonService.Setup
import JsonService.Shutdown

/-!
# Applications

An application is a table of routes whose handlers stand within its layers. Every request it is given ends
in one response, and with it the request's context is cancelled. A failure that asks for a shutdown is
answered like any other and tells the server to stop.
-/
namespace JsonService

/-- An application for a service whose state is `σ`. Models `App`. -/
structure App (σ : Type) where
  /-- Around every handler, the first one outermost. -/
  layers : List (Layer σ) := []
  routes : Route.Table (Handler σ) := {}

structure Incoming where
  method : String := "GET"
  target : Target
  headers : List (String × List UInt8) := []
  body : Body := {}

/-- What an application works on beside its routes. -/
structure App.State (σ : Type) where
  shared : Shared σ
  channel : Channel := {}
  /-- How many contexts there have been. -/
  contexts : Nat := 0

namespace App

/-- The name of the header that tells a client the trace of its request. -/
def traceHeader : String := "x-trace-id"

/-- Registers a handler within the application's layers and, inside of those, its own. Models
`App::try_handle_with`. -/
def handle (app : App σ) (method : Method) (version path : String) (handler : Handler σ)
    (extra : List (Layer σ) := []) : Except SetupFailure Unit × App σ :=
  let chain := app.layers.foldr (fun layer next => Handler.recorded (layer next)) (handler.within extra)
  let path := Route.versioned version path
  let (outcome, routes) := app.routes.insert method path chain
  (outcome.mapError (SetupFailure.route method path), { app with routes })

/-- How the work on a request ends: with a response, or with a failure that asks for a shutdown. -/
inductive Ending where
  | respond (res : Response)
  | shutdown (e : Failure)

/-- The answer to a request that reaches no handler. Models `fallback`. -/
def fallback (status : Status) : Task σ Ending := return .respond (← respondError status (.ofStatus status))

def span (ctx : Context) (method : Method) (path : String) : Log.Span where
  name := "request"
  target := "taproom::app"
  fields := [ctx.traceField, ("method", .words method.name), ("path", .words path)]

/-- What a handler comes to, as an ending. Only a failure that no layer has rendered gets here. -/
def settle (ctx : Context) : Result → Task σ Ending
  | .ok res => return .respond res
  | .error e => do
    if e.isShutdown then return .shutdown e
    Task.log .error "unhandled error" [ctx.traceField, ("error", .words e.message)]
    return .respond (← respondFailure e)

/-- The work on a request. Its handler runs only if its method and its path are known and its body
can be read. Models `App::dispatch`. -/
def dispatch (app : App σ) (ctx : Context) (r : Incoming) : Task σ Ending :=
  match Method.ofName? r.method with
  | none => fallback .methodNotAllowed
  | some method =>
    match app.routes.lookup method r.target.path with
    | .methodNotAllowed => fallback .methodNotAllowed
    | .notFound => fallback .notFound
    | .found handler params =>
      match r.body.collect with
      | .error reason => do
        Task.log .warn s!"reading request body: {reason}" [ctx.traceField]
        return .respond (← respondError .badRequest { error := "unable to read request body" })
      | .ok body => do
        let req : Request := { method, target := r.target, headers := r.headers, body, params }
        let result ← (handler ctx req).within (span ctx method req.path)
        settle ctx result

def State.log (s : State σ) (event : Log.Event) : State σ :=
  { s with shared.log := s.shared.log ++ [event] }

/-- Signals the server to stop, for a failure that asks for it, and answers the request. Models
`App::shutdown_requested`. -/
def State.requestShutdown (ctx : Context) (e : Failure) (s : State σ) : Response × State σ :=
  let (first, channel) := s.channel.signal .terminate
  let s := { s with channel }.log
    { level := .error, message := "signalling shutdown"
      fields := [ctx.traceField, ("error", .words e.message), ("first", .bool first)] }
  ((({} : Response.Builder).withStatus .unavailable).json
    (Text.Utf8.bytes (ErrorBody.ofStatus .unavailable).toJson.render), s)

/-- Puts a response on the wire, with the trace of its request, and logs the headers that may not go
there. Models `finish`. -/
def State.finish (ctx : Context) (res : Response) (s : State σ) : Response.Wire × State σ :=
  let res := res.push traceHeader ctx.trace.render
  (res.toWire, res.dropped.foldl (fun s name => s.log
    { level := .warn, message := "dropping invalid response header", fields := [("header", .words name)] }) s)

/-- Ends the work on a request. -/
def State.conclude (ctx : Context) (ending : Ending) (s : State σ) : Response.Wire × State σ :=
  match ending with
  | .respond res => s.finish ctx res
  | .shutdown e =>
    let (res, s) := s.requestShutdown ctx e
    s.finish ctx res

/-- What becomes of a call. -/
inductive Outcome where
  | answered (res : Response.Wire)
  /-- The panic left the application. -/
  | panicked (p : Panic)
  /-- The work was given up, or waits for something that will not come. -/
  | abandoned

/-- A call that is over: what became of it, and what it leaves in the request's context. -/
structure Call where
  outcome : Outcome
  context : Context
  request : RequestState

def State.start (arrived : Time) (s : State σ) : Context × State σ :=
  (⟨Context.traceOf s.contexts, arrived⟩, { s with contexts := s.contexts + 1 })

/-- Ends a call with the fate of its work. However it ends, its context is cancelled. -/
def State.close (ctx : Context) (fate : Task.Fate Ending) (w : World σ) (s : State σ) : Call × State σ :=
  let s := { s with shared := w.shared }
  match fate with
  | .returned ending =>
    let (wire, s) := s.conclude ctx ending
    (⟨.answered wire, ctx, { status := some wire.status, cancelled := true }⟩, s)
  | .panicked p => (⟨.panicked p, ctx, { w.request with cancelled := true }⟩, s)
  | .suspended => (⟨.abandoned, ctx, { w.request with cancelled := true }⟩, s)

/-- Gives a request to the application and runs it to its end. Models `App::call`. -/
def call (app : App σ) (r : Incoming) (s : State σ) (arrived : Time := .epoch) : Call × State σ :=
  let (ctx, s) := s.start arrived
  let (fate, w) := (app.dispatch ctx r).run { shared := s.shared }
  s.close ctx fate w

/-- Gives a request to the application and gives it up when it pauses for the first time. -/
def callBriefly (app : App σ) (r : Incoming) (s : State σ) (arrived : Time := .epoch) : Call × State σ :=
  let (ctx, s) := s.start arrived
  let (fate, w) := (app.dispatch ctx r).poll { shared := s.shared }
  s.close ctx fate w

end App

end JsonService
