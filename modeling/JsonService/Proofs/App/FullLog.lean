import JsonService.Proofs.App.Counting
import JsonService.Proofs.App.TraceHeader
import JsonService.Proofs.App.Unreached
import JsonService.Proofs.Layers.LogAndWire

/-!
# The whole log of a request

A request that reaches a handler within the usual layers is told in full: when it starts, what the handler itself logs,
what each layer says about what the handler has come to, when the request is over, and what the application says after
its layers. Here is that list, for every outcome of the handler, with and without the layer for errors.

**Events.** What the handler comes to is handed on with panics turned into failures (`handedOn`). `Layers.account` is
what is logged within the layers; the application adds whether it signals the server to stop, or that no layer has
rendered the failure (`closing`), and names the headers of a response that may not go out (`unsent`). `outline` says
the same of an outcome by levels and messages alone.

**Results.**
* `run_guarded`, `run_told`: what a run within the usual layers comes to, what it logs and the status that it leaves.
* `call_log`: the log after a call.
* `ownEvents_outline`, `ownEvents_traced`: what the framework's own events say, and that each has the trace.
* `log_complete`: so every event of the framework is there once and in its place, and with the trace of the request.
* `unsent_header_logged`: a header that may not go out is the subject of one event more, without a trace.
-/
namespace JsonService

variable {σ : Type}

/-- The usual layers, with or without the one that renders errors. -/
def usualOr (rendering : Bool) : List Builtin :=
  App.usual.filter fun b => rendering || b != .errors

/-- What is handed on where panics are caught. -/
def handedOn : Except Panic Result → Result
  | .ok result => result
  | .error p => .error p.failure

/-- What is left of a result where errors are rendered, or are not. -/
def renderedIf (rendering : Bool) : Result → Result
  | .ok res => .ok res
  | .error e => if rendering then e.rendered else .error e

/-- The status that a result leaves in the cell on its way out, where `recorded` was there before. -/
def statusLeft (rendering : Bool) (recorded : Option Status) : Result → Option Status
  | .ok res => some res.status
  | .error e => if rendering then some e.answerStatus else recorded

namespace Layers

/-- What is said of a panic. -/
def caughtIn (ctx : Context) : Except Panic Result → List Log.Event
  | .ok _ => []
  | .error p => [caught ctx p]

/-- What is said of a failure where errors are rendered. -/
def reportedIn (ctx : Context) (rendering : Bool) : Result → List Log.Event
  | .ok _ => []
  | .error e => if rendering then [reported ctx e] else []

end Layers

/-! ## Runs within the usual layers -/

section
variable {h next : Handler σ} {ctx : Context} {req : Request} {w w' v : World σ} {x : Except Panic Result}
  {result : Result} {recorded : Option Status}

/-- The layer that catches panics says that there was one and hands on a failure in its place. -/
theorem run_guarded (hr : (h ctx req).run w = (.of x, w')) :
    ∃ v, (h.within [Layers.panics] ctx req).run w = (.returned (handedOn x), v) ∧
      v.shared.log = w'.shared.log ++ Layers.caughtIn ctx x ∧
      v.request.status = statusLeft false w'.request.status (handedOn x) := by
  have within : h.within [Layers.panics] = Handler.recorded (Layers.panics (Handler.recorded h)) := rfl
  rw [within, run_recorded, run_panics, run_recorded, hr]
  rcases x with p | e | res
  · exact ⟨_, rfl, rfl, rfl⟩
  · exact ⟨_, rfl, (List.append_nil _).symm, rfl⟩
  · exact ⟨_, rfl, (List.append_nil _).symm, rfl⟩

/-- The layer for metrics logs nothing and leaves the status as it is. -/
theorem run_metered (hr : (next ctx req).run (w.after [.count Counters.requests]) = (.returned result, v))
    (left : v.request.status = statusLeft false recorded result) :
    ∃ v', (Handler.recorded (Layers.metrics next) ctx req).run w = (.returned result, v') ∧
      v'.shared.log = v.shared.log ∧ v'.request.status = statusLeft false recorded result := by
  rw [run_recorded, run_metrics, hr]
  cases result with
  | ok res => exact ⟨_, rfl, rfl, rfl⟩
  | error e => exact ⟨_, rfl, rfl, left⟩

/-- The layer for errors, if there is one, says that there is a failure and leaves the status that a client sees. -/
theorem run_rendering (rendering : Bool) (hr : (next ctx req).run w = (.returned result, v))
    (left : v.request.status = statusLeft false recorded result) :
    ∃ v', ((if rendering then Handler.recorded (Layers.errors next) else next) ctx req).run w =
        (.returned (renderedIf rendering result), v') ∧
      v'.shared.log = v.shared.log ++ Layers.reportedIn ctx rendering result ∧
      v'.request.status = statusLeft rendering recorded result := by
  cases rendering with
  | false => cases result <;> exact ⟨v, hr, (List.append_nil _).symm, left⟩
  | true =>
    simp only [if_true, run_recorded, run_errors, hr]
    cases result with
    | ok res => exact ⟨_, rfl, (List.append_nil _).symm, rfl⟩
    | error e =>
      simp only [renderedIf, statusLeft, if_true, Failure.rendered, Failure.answerStatus]
      cases e.isShutdown <;> exact ⟨_, rfl, rfl, rfl⟩

/-- The logger says that the request is over, with the status that is left in the cell. -/
theorem run_logged {status : Option Status}
    (hr : (next ctx req).run (w.after [.log (Layers.started ctx req)]) = (.returned result, v))
    (left : v.request.status = status) :
    ∃ v', (Handler.recorded (Layers.logger next) ctx req).run w = (.returned result, v') ∧
      v'.shared.log = v.shared.log ++ [Layers.completed ctx req ((status.map (·.code)).getD 0)] := by
  subst left
  rw [run_recorded, run_logger, hr]
  cases result <;> exact ⟨_, rfl, rfl⟩

end

namespace Layers

/-- What is logged in the span of a request: what the handler logs itself is between what the layers say before and
after it. `recorded` is the status in the cell when the handler is done. -/
def account (ctx : Context) (req : Request) (rendering : Bool) (own : List Log.Event) (x : Except Panic Result)
    (recorded : Option Status) : List Log.Event :=
  started ctx req :: own ++ caughtIn ctx x ++ reportedIn ctx rendering (handedOn x) ++
    [completed ctx req (((statusLeft rendering recorded (handedOn x)).map (·.code)).getD 0)]

end Layers

/-- The world in which the usual layers call the handler inside of them. -/
def World.begun (ctx : Context) (req : Request) (w : World σ) : World σ :=
  w.after [.log (Layers.started ctx req), .count Counters.requests]

section
variable {h : Handler σ} {ctx : Context} {req : Request} {w w' : World σ} {x : Except Panic Result}

/-- What a run within the usual layers comes to, and what it logs. -/
theorem run_told (rendering : Bool) (hr : (h ctx req).run (w.begun ctx req) = (.of x, w')) :
    (∃ v, ((h.within ((usualOr rendering).map Builtin.layer)) ctx req).run w =
        (.returned (renderedIf rendering (handedOn x)), v)) ∧
      ((h.within ((usualOr rendering).map Builtin.layer)) ctx req).events w =
        Layers.account ctx req rendering ((h ctx req).events (w.begun ctx req)) x w'.request.status := by
  obtain ⟨v₁, run₁, log₁, left₁⟩ := run_guarded hr
  obtain ⟨v₂, run₂, log₂, left₂⟩ :=
    run_metered (w := w.after [.log (Layers.started ctx req)]) run₁ left₁
  obtain ⟨v₃, run₃, log₃, left₃⟩ := run_rendering rendering run₂ left₂
  obtain ⟨v, run, log⟩ := run_logged run₃ left₃
  have stack : h.within ((usualOr rendering).map Builtin.layer) = Handler.recorded (Layers.logger
      (if rendering then Handler.recorded (Layers.errors (Handler.recorded (Layers.metrics (h.within [Layers.panics]))))
        else Handler.recorded (Layers.metrics (h.within [Layers.panics])))) := by
    cases rendering <;> rfl
  rw [← stack] at run
  refine ⟨⟨v, run⟩, ?_⟩
  -- what is in the log before and after tells what was added
  have whole := Task.run_log (h.within ((usualOr rendering).map Builtin.layer) ctx req) w
  have inner := Task.run_log (h ctx req) (w.begun ctx req)
  rw [run, log, log₃, log₂, log₁] at whole
  rw [hr] at inner
  rw [inner] at whole
  simp only [World.begun, World.after, List.foldl, Effect.apply, List.append_assoc] at whole
  rw [← List.append_cancel_left whole]
  simp only [Layers.account, World.begun, World.after, List.foldl, Effect.apply, List.append_assoc, List.cons_append,
    List.nil_append]

end

/-! ## Calls -/

namespace App

/-- A failure that no layer has rendered. -/
def unhandled (ctx : Context) (e : Failure) : Log.Event where
  level := .error
  message := "unhandled error"
  fields := [ctx.traceField, ("error", .words e.message)]

/-- What the application says after its layers: that it signals the server to stop, where `first` says whether nobody
has done so before, or that no layer has rendered a failure. -/
def closing (ctx : Context) (rendering first : Bool) : Result → List Log.Event
  | .ok _ => []
  | .error e => if e.isShutdown then [signalled ctx e first] else if rendering then [] else [unhandled ctx e]

/-- What is said of the headers of a handler's response that may not go out. -/
def unsent (ctx : Context) : Result → List Log.Event
  | .ok res => droppedEvents ctx res
  | .error _ => []

/-- All that is made for a client out of a failure may go out. -/
theorem droppedEvents_json (ctx : Context) (status : Status) (body : List UInt8) :
    droppedEvents ctx ((({} : Response.Builder).withStatus status).json body) = [] := by
  have type : (Response.wireHeader? ("content-type", Response.jsonType)).isNone = false := by decide +kernel
  simp [droppedEvents, traced, Response.push, Response.dropped, Response.Builder.json, Response.Builder.finish,
    Response.Builder.withStatus, type, wireHeader_trace]

theorem close_log (ctx : Context) (rendering : Bool) (result : Result) (u : World σ) (s : State σ) :
    (s.close ctx ((settle ctx (renderedIf rendering result)).run u).1
        ((settle ctx (renderedIf rendering result)).run u).2).2.shared.log =
      u.shared.log ++ closing ctx rendering (s.channel.signal .terminate).1 result ++ unsent ctx result := by
  cases result with
  | ok res =>
    simp only [renderedIf, run_settle, Ending.ofResult, State.close, State.conclude, State.finish_eq, closing, unsent,
      List.append_nil]
    rfl
  | error e =>
    cases hs : e.isShutdown with
    | true =>
      have result : renderedIf rendering (.error e) = .error e := by
        cases rendering <;> simp [renderedIf, Failure.rendered, hs]
      have sent := droppedEvents_json ctx .unavailable (Text.Utf8.bytes (ErrorBody.ofStatus .unavailable).toJson.render)
      simp only [result, run_settle, Ending.ofResult, State.close, State.conclude, State.requestShutdown,
        State.finish_eq, State.log, closing, unsent, hs, if_true]
      simp only [droppedEvents, traced] at sent
      rw [sent]
      rfl
    | false =>
      have sent := droppedEvents_json ctx e.status (Text.Utf8.bytes (ErrorBody.ofFailure e).toJson.render)
      simp only [droppedEvents, traced] at sent
      cases rendering with
      | true =>
        simp only [renderedIf, Failure.rendered, run_settle, Ending.ofResult, State.close, State.conclude,
          State.finish_eq, closing, unsent, hs, if_true, Bool.false_eq_true, if_false, Failure.response]
        simp only [sent, List.append_nil]
        rfl
      | false =>
        simp only [renderedIf, run_settle, Ending.ofResult, State.close, State.conclude, State.finish_eq, closing,
          unsent, hs, Bool.false_eq_true, if_false, Failure.response]
        rw [sent]
        rfl

section
variable {app : App σ} {h : Handler σ} {r : Incoming} {req : Request} {ctx : Context} {x : Except Panic Result}
  {w' : World σ}

theorem call_log (rendering : Bool) (layers : app.layers = (usualOr rendering).map Builtin.layer)
    (reaches : app.Reaches r (app.chain [] h) req) (s : State σ) (t : Time)
    (hctx : ctx = ⟨Context.traceOf s.contexts, t⟩)
    (hr : (h ctx req).run (World.begun ctx req { shared := s.shared }) = (.of x, w')) :
    (app.call r s t).2.shared.log = s.shared.log ++
      (Layers.account ctx req rendering ((h ctx req).events (World.begun ctx req { shared := s.shared })) x
        w'.request.status).map (Log.Event.inSpan (span ctx req.method req.path)) ++
      closing ctx rendering (s.channel.signal .terminate).1 (handedOn x) ++ unsent ctx (handedOn x) := by
  have chain : app.chain [] h = h.within ((usualOr rendering).map Builtin.layer) := by
    rw [chain_eq_within, layers, List.append_nil]
  obtain ⟨⟨v, run⟩, events⟩ := run_told rendering hr
  rw [call_eq, ← hctx, reaches.dispatch, Task.run_bind, Task.run_within, chain, run, events]
  exact close_log ctx rendering (handedOn x) _ _

end

/-! ## What the events tell -/

section
variable (ctx : Context) (req : Request) (rendering first : Bool)

theorem reported_traced (e : Failure) : ctx.traceField ∈ (Layers.reported ctx e).fields := by
  simp only [Layers.reported]
  split
  · exact List.mem_cons_self
  · split <;> exact List.mem_cons_self

theorem caughtIn_traced (x : Except Panic Result) :
    ∀ event ∈ Layers.caughtIn ctx x, ctx.traceField ∈ event.fields := by
  cases x with
  | ok result => simp [Layers.caughtIn]
  | error p => exact List.forall_mem_singleton.mpr List.mem_cons_self

theorem reportedIn_traced (result : Result) :
    ∀ event ∈ Layers.reportedIn ctx rendering result, ctx.traceField ∈ event.fields := by
  cases result with
  | ok res => simp [Layers.reportedIn]
  | error e => cases rendering <;> simp [Layers.reportedIn, reported_traced]

theorem closing_traced (result : Result) :
    ∀ event ∈ closing ctx rendering first result, ctx.traceField ∈ event.fields := by
  cases result with
  | ok res => simp [closing]
  | error e => cases rendering <;> cases hs : e.isShutdown <;> simp [closing, hs, signalled, unhandled]

/-- The framework's own events of a request that reaches a handler within the usual layers. -/
def ownEvents (x : Except Panic Result) (recorded : Option Status) : List Log.Event :=
  Layers.account ctx req rendering [] x recorded ++ closing ctx rendering first (handedOn x)

/-- Level and message of what is said of a failure where errors are rendered. -/
def heading (e : Failure) : Log.Level × String :=
  if e.isShutdown then (.error, "handler requested shutdown")
  else if 500 ≤ e.status.code ∧ e.status.code ≤ 599 then (.error, "request failed")
  else (.warn, "request rejected")

/-- Level and message of what is said in the end of a failure. -/
def lastWord (e : Failure) : List (Log.Level × String) :=
  if e.isShutdown then [(.error, "signalling shutdown")]
  else if rendering then [] else [(.error, "unhandled error")]

/-- Levels and messages of the framework's own events, by what the handler comes to. -/
def outline : Except Panic Result → List (Log.Level × String)
  | .ok (.ok _) => [(.info, "request started"), (.info, "request completed")]
  | .ok (.error e) => (.info, "request started") :: (if rendering then [heading e] else []) ++
      (.info, "request completed") :: lastWord rendering e
  | .error p => (.info, "request started") :: (.error, "handler panicked") ::
      (if rendering then [heading p.failure] else []) ++ (.info, "request completed") :: lastWord rendering p.failure

theorem heading_reported (e : Failure) :
    ((Layers.reported ctx e).level, (Layers.reported ctx e).message) = heading e := by
  simp only [Layers.reported, heading, Status.isServerError, decide_eq_true_eq]
  split
  · rfl
  · split <;> rfl

theorem lastWord_closing (e : Failure) :
    (closing ctx rendering first (.error e)).map (fun event => (event.level, event.message)) =
      lastWord rendering e := by
  simp only [closing, lastWord]
  split
  · rfl
  · split <;> rfl

theorem ownEvents_outline (x : Except Panic Result) (recorded : Option Status) :
    (ownEvents ctx req rendering first x recorded).map (fun event => (event.level, event.message)) =
      outline rendering x := by
  rcases x with p | e | res
  · simp only [ownEvents, Layers.account, outline, handedOn, Layers.caughtIn, Layers.reportedIn, List.map_append,
      lastWord_closing]
    cases rendering with
    | false => rfl
    | true => simp [Layers.started, Layers.caught, Layers.completed, heading_reported]
  · simp only [ownEvents, Layers.account, outline, handedOn, Layers.caughtIn, Layers.reportedIn, List.map_append,
      lastWord_closing]
    cases rendering with
    | false => rfl
    | true => simp [Layers.started, Layers.completed, heading_reported]
  · rfl

/-- A failure that is rendered is told with its status. -/
theorem reported_status {e : Failure} (hs : e.isShutdown = false) :
    ("status", .number e.status.code) ∈ (Layers.reported ctx e).fields := by
  simp only [Layers.reported, hs, Bool.false_eq_true, if_false]
  split <;> exact List.mem_cons_of_mem _ List.mem_cons_self

theorem ownEvents_traced (x : Except Panic Result) (recorded : Option Status) :
    ∀ event ∈ ownEvents ctx req rendering first x recorded, ctx.traceField ∈ event.fields := by
  intro event he
  simp only [ownEvents, Layers.account, List.mem_append, List.mem_cons, List.not_mem_nil, or_false] at he
  rcases he with (((rfl | he) | he) | rfl) | he
  · exact List.mem_cons_self
  · exact caughtIn_traced ctx x event he
  · exact reportedIn_traced ctx rendering _ event he
  · exact List.mem_append_left _ List.mem_cons_self
  · exact closing_traced ctx rendering first _ event he

end

/-- The log tells of a request that reaches a handler within the usual layers: what the handler logs, what it comes to
and the status that it leaves in the cell are `own`, `x` and `recorded`. -/
structure FullyTold (app : App σ) (r : Incoming) (s : State σ) (t : Time) (ctx : Context) (req : Request)
    (rendering : Bool) (own : List Log.Event) (x : Except Panic Result) (recorded : Option Status) : Prop where
  /-- The events within the layers are in the span of the request; the others come after them. -/
  log : (app.call r s t).2.shared.log = s.shared.log ++
    (Layers.account ctx req rendering own x recorded).map (Log.Event.inSpan (span ctx req.method req.path)) ++
    closing ctx rendering (s.channel.signal .terminate).1 (handedOn x) ++ unsent ctx (handedOn x)
  /-- The context is the one of the call. -/
  context : (app.call r s t).1.context = ctx
  /-- What the framework's own events say, in order; those about headers follow. -/
  outlined : (ownEvents ctx req rendering (s.channel.signal .terminate).1 x recorded).map
    (fun event => (event.level, event.message)) = outline rendering x
  /-- Each of them has the trace of the request. -/
  traced : ∀ event ∈ ownEvents ctx req rendering (s.channel.signal .terminate).1 x recorded,
    ctx.traceField ∈ event.fields
  /-- A failure that is rendered is told with its status. -/
  status : ∀ e, handedOn x = .error e → e.isShutdown = false →
    ("status", .number e.status.code) ∈ (Layers.reported ctx e).fields
  /-- The first event and the one that says that the request is over have its method and its path. -/
  asked : ∀ event ∈ [Layers.started ctx req,
      Layers.completed ctx req (((statusLeft rendering recorded (handedOn x)).map (·.code)).getD 0)],
    ("method", .words r.method) ∈ event.fields ∧ ("path", .words r.target.path) ∈ event.fields

/-- The whole log of a request that reaches a handler within the usual layers, with or without the one for errors,
whatever the handler comes to: it starts; then come the handler's own events; a panic is told; a failure is told where
errors are rendered, as one that asks for a shutdown, as one of the server or as one of the client; the request is
over; then the server is told to stop, if the failure asks for that, and a failure that no layer has rendered is
told. Each of these is there once. Last come the headers of the handler's response that may not go out. -/
theorem log_complete (rendering : Bool) {app : App σ} {h : Handler σ}
    (layers : app.layers = (usualOr rendering).map Builtin.layer) {r : Incoming} {req : Request}
    (reaches : app.Reaches r (app.chain [] h) req) (s : State σ) (t : Time) {ctx : Context}
    (hctx : ctx = ⟨Context.traceOf s.contexts, t⟩) {w : World σ} (hw : w = World.begun ctx req { shared := s.shared })
    {x : Except Panic Result} {w' : World σ} (hr : (h ctx req).run w = (.of x, w')) :
    FullyTold app r s t ctx req rendering ((h ctx req).events w) x w'.request.status := by
  subst hw
  have method : r.method = req.method.name := (ofName?_eq_some.mp reaches.method).symm
  have path : r.target.path = req.path := by rw [Request.path, reaches.target]
  have asked : ∀ event ∈ [Layers.started ctx req,
      Layers.completed ctx req (((statusLeft rendering w'.request.status (handedOn x)).map (·.code)).getD 0)],
      ("method", .words r.method) ∈ event.fields ∧ ("path", .words r.target.path) ∈ event.fields := by
    rw [method, path]
    simp [Layers.started, Layers.completed, Layers.requestFields]
  exact {
    log := call_log rendering layers reaches s t hctx hr
    context := by rw [call_context, hctx]; rfl
    outlined := ownEvents_outline ctx req rendering _ x _
    traced := ownEvents_traced ctx req rendering _ x _
    status := fun _ _ hs => reported_status ctx hs
    asked }

/-- The handler has recorded 200 when it asks for a shutdown. -/
theorem log_complete_stopping :
    ((stoppingApp.call stoppingRequest { shared := { service := () } } .epoch).2.shared.log).map
        (fun event => (event.level, event.message)) =
      [(.info, "request started"), (.error, "handler requested shutdown"), (.info, "request completed"),
        (.error, "signalling shutdown")] := by
  have reaches : stoppingApp.Reaches stoppingRequest (stoppingApp.chain [] stopping)
      { method := .get, target := stoppingRequest.target } := ⟨rfl, rfl, rfl, rfl, rfl, rfl⟩
  have layers : stoppingApp.layers = (usualOr true).map Builtin.layer := rfl
  have told := log_complete true layers reaches { shared := { service := () } } .epoch rfl rfl
    (x := .ok (.error (.shutdown "no more"))) rfl
  rw [told.log]
  rfl

def oddHeader : Handler Unit := fun _ _ => return .ok { headers := [("bad name", "x")] }

def oddApp : App Unit :=
  (({ layers := usual.map Builtin.layer } : App Unit).handle .get "" "odd" oddHeader).2

def oddRequest : Incoming := { target := { origin := "", path := "/odd", query := none } }

/-- A header that may not go out is the subject of one event more, which has no trace. -/
theorem unsent_header_logged :
    (oddApp.call oddRequest { shared := { service := () } } .epoch).2.shared.log.map (·.message) =
      ["request started", "request completed", "dropping invalid response header"] ∧
    ∃ event ∈ (oddApp.call oddRequest { shared := { service := () } } .epoch).2.shared.log,
      ∀ field ∈ event.fields, field.1 ≠ "trace_id" := by
  have reaches : oddApp.Reaches oddRequest (oddApp.chain [] oddHeader)
      { method := .get, target := oddRequest.target } := ⟨rfl, rfl, rfl, rfl, rfl, rfl⟩
  have layers : oddApp.layers = (usualOr true).map Builtin.layer := rfl
  have log := call_log true layers reaches { shared := { service := () } } .epoch rfl
    (x := .ok (.ok { headers := [("bad name", "x")] })) rfl
  have dropped : droppedEvents ⟨Context.traceOf 0, .epoch⟩ { headers := [("bad name", "x")] } =
      [State.droppedEvent "bad name"] := by
    decide +kernel
  rw [log]
  simp only [unsent, handedOn, dropped]
  refine ⟨rfl, State.droppedEvent "bad name", List.mem_append_right _ List.mem_cons_self, ?_⟩
  simp [State.droppedEvent]

end App

end JsonService
