import JsonService.App

/-!
# Runs of handlers within layers

What a run of a task logs, and what a run of each built-in layer comes to, in terms of the run of the handler
inside of it.

**Results.**
* `run_log`: a run adds its `events` to the log and leaves what is there.
* `run_setLog`, `run_within`: nothing a task does depends on the log, so a span changes nothing but the
  events.
* `run_recorded`, `run_logger`, `run_errors`, `run_metrics`, `run_panics`: one equation per layer.
* `chain_eq_within`: the handler that an application registers stands within its layers and the extra ones,
  in a row.
-/
namespace JsonService

variable {σ α β : Type}

def Log.Event.inSpan (span : Log.Span) (e : Log.Event) : Log.Event :=
  { e with span := some (e.span.getD span) }

def Effect.logged : Effect σ → List Log.Event
  | .log e => [e]
  | _ => []

def World.setLog (w : World σ) (log : List Log.Event) : World σ := { w with shared.log := log }

theorem Effect.apply_log (w : World σ) (e : Effect σ) :
    (e.apply w).shared.log = w.shared.log ++ e.logged := by
  cases e <;> simp [Effect.apply, Effect.logged]

theorem Effect.apply_setLog (w : World σ) (log : List Log.Event) (e : Effect σ) :
    e.apply (w.setLog log) = (e.apply w).setLog (log ++ e.logged) := by
  cases e <;> simp [Effect.apply, Effect.logged, World.setLog]

theorem Effect.apply_inSpan (w : World σ) (span : Log.Span) (e : Effect σ) :
    (Task.inSpan span e).apply w =
      (e.apply w).setLog (w.shared.log ++ e.logged.map (Log.Event.inSpan span)) := by
  cases e <;> simp [Task.inSpan, Effect.apply, Effect.logged, World.setLog, Log.Event.inSpan]

theorem World.view_setLog (w : World σ) (log : List Log.Event) : (w.setLog log).view = w.view := rfl

theorem World.setLog_setLog (w : World σ) (log log' : List Log.Event) :
    (w.setLog log).setLog log' = w.setLog log' := rfl

theorem World.setLog_log (w : World σ) : w.setLog w.shared.log = w := rfl

namespace Task

@[simp] theorem bind_eq (t : Task σ α) (f : α → Task σ β) : (t >>= f) = t.bind f := rfl

@[simp] theorem pure_eq (a : α) : (pure a : Task σ α) = .done a := rfl

def events : Task σ α → World σ → List Log.Event
  | .done _, _ | .panicked _, _ => []
  | .step effect next, w => effect.logged ++ (next w.view).events (effect.apply w)
  | .pause next, w => next.events w
  | .await ready next, w => if ready w.view then next.events w else []

theorem run_log (t : Task σ α) (w : World σ) :
    (t.run w).2.shared.log = w.shared.log ++ t.events w := by
  induction t generalizing w with
  | done | panicked => simp [run, events]
  | step effect next ih => simp [run, events, ih, Effect.apply_log]
  | pause next ih => exact ih w
  | await ready next ih =>
    simp only [run, events]
    split
    · exact ih w
    · simp

/-- Nothing a task does depends on the log. -/
theorem run_setLog (t : Task σ α) (w : World σ) (log : List Log.Event) :
    t.run (w.setLog log) = ((t.run w).1, (t.run w).2.setLog (log ++ t.events w)) := by
  induction t generalizing w log with
  | done | panicked => simp [run, events]
  | step effect next ih =>
    simp only [run, events, World.view_setLog, Effect.apply_setLog]
    rw [ih, List.append_assoc]
  | pause next ih => exact ih w log
  | await ready next ih =>
    have hv : (w.setLog log).view = w.view := rfl
    cases h : ready w.view with
    | true => simpa [run, events, hv, h] using ih w log
    | false => simp [run, events, hv, h]

theorem events_setLog (t : Task σ α) (w : World σ) (log : List Log.Event) :
    t.events (w.setLog log) = t.events w := by
  induction t generalizing w log with
  | done | panicked => rfl
  | step effect next ih => simp only [events, World.view_setLog, Effect.apply_setLog, ih]
  | pause next ih => exact ih w log
  | await ready next ih => simp only [events, World.view_setLog, ih]

theorem run_within (span : Log.Span) (t : Task σ α) (w : World σ) :
    (t.within span).run w = ((t.run w).1,
      (t.run w).2.setLog (w.shared.log ++ (t.events w).map (Log.Event.inSpan span))) := by
  induction t generalizing w with
  | done | panicked => simp [within, run, events, World.setLog_log]
  | step effect next ih =>
    simp only [within, run, events, Effect.apply_inSpan]
    rw [ih, run_setLog, events_setLog, World.setLog_setLog, List.map_append, ← List.append_assoc]
    rfl
  | pause next ih => exact ih w
  | await ready next ih =>
    cases h : ready w.view with
    | true => simpa [within, run, events, h] using ih w
    | false => simp [within, run, events, h, World.setLog_log]

end Task

/-! ## What layers make of a result -/

/-- The response that tells a client of a failure. -/
def Failure.response (e : Failure) : Response :=
  (({} : Response.Builder).withStatus e.status).json (Text.Utf8.bytes (ErrorBody.ofFailure e).toJson.render)

/-- The status that a client sees of a failure. -/
def Failure.answerStatus (e : Failure) : Status := if e.isShutdown then .unavailable else e.status

/-- What is left of a failure once errors are rendered: a response, unless the process should stop. -/
def Failure.rendered (e : Failure) : Result := if e.isShutdown then .error e else .ok e.response

/-- The failure that a panic is turned into. -/
def Panic.failure (p : Panic) : Failure := .unexpected s!"PANIC [{p.message}]"

namespace Layers

def started (ctx : Context) (req : Request) : Log.Event where
  level := .info
  message := "request started"
  fields := requestFields ctx req

def completed (ctx : Context) (req : Request) (code : Nat) : Log.Event where
  level := .info
  message := "request completed"
  fields := requestFields ctx req ++ [("status", .number code)]

/-- A failure is rendered, or handed on because the process should stop. -/
def reported (ctx : Context) (e : Failure) : Log.Event :=
  if e.isShutdown then
    { level := .error, message := "handler requested shutdown"
      fields := [ctx.traceField, ("error", .words e.message)] }
  else
    let fields := [ctx.traceField, ("status", .number e.status.code), ("error", .words e.message)]
    if e.status.isServerError then { level := .error, message := "request failed", fields }
    else { level := .warn, message := "request rejected", fields }

def caught (ctx : Context) (p : Panic) : Log.Event where
  level := .error
  message := "handler panicked"
  fields := [ctx.traceField, ("panic", .words p.message)]

end Layers

/-- The world after some effects, the first one first. -/
def World.after (w : World σ) (effects : List (Effect σ)) : World σ := effects.foldl Effect.apply w

/-! ## Runs within one layer -/

section
variable (h next : Handler σ) (ctx : Context) (req : Request) (w : World σ)

theorem run_recorded : (Handler.recorded h ctx req).run w = match (h ctx req).run w with
    | (.returned (.ok res), w) => (.returned (.ok res), w.after [.record res.status])
    | fate => fate := by
  simp only [Handler.recorded, Task.bind_eq, Task.run_bind]
  split
  · rename_i r w' hr
    cases r <;> simp [hr, Task.bind, Task.run, Task.record, Task.perform, World.after]
  · simp [*]
  · simp [*]

theorem run_logger : (Layers.logger next ctx req).run w =
    match (next ctx req).run (w.after [.log (Layers.started ctx req)]) with
    | (.returned result, w) => (.returned result,
        w.after [.log (Layers.completed ctx req ((w.request.status.map (·.code)).getD 0))])
    | fate => fate := by
  simp only [Layers.logger, Task.log, Task.perform, Task.look, Task.bind_eq, Task.bind, Task.run,
    Task.run_bind, World.after, List.foldl, Layers.started]
  split <;> simp_all [Task.run, Effect.apply, World.view, Layers.completed]

theorem run_errors : (Layers.errors next ctx req).run w = match (next ctx req).run w with
    | (.returned (.error e), w) => (.returned e.rendered,
        w.after [.log (Layers.reported ctx e), .record e.answerStatus])
    | fate => fate := by
  simp only [Layers.errors, Task.bind_eq, Task.run_bind]
  split
  · rename_i r w' hr
    cases r with
    | ok res => simp [hr, Task.run]
    | error e =>
      simp only [hr]
      cases hs : e.isShutdown with
      | true =>
        simp [Task.log, Task.perform, Task.record, Task.bind, Task.run, World.after, Layers.reported,
          Failure.rendered, Failure.answerStatus, hs, Effect.apply]
      | false =>
        cases hv : e.status.isServerError <;>
          simp [Task.log, Task.perform, Task.record, Task.bind, Task.run, World.after, Layers.reported,
            Failure.rendered, Failure.answerStatus, Failure.response, respondFailure, respondError, hs, hv,
            Effect.apply]
  · simp [*]
  · simp [*]

theorem run_metrics : (Layers.metrics next ctx req).run w =
    match (next ctx req).run (w.after [.count Counters.requests]) with
    | (.returned (.error e), w) => (.returned (.error e), w.after [.count Counters.errors])
    | fate => fate := by
  simp only [Layers.metrics, Task.count, Task.perform, Task.bind_eq, Task.bind, Task.run, Task.run_bind,
    World.after, List.foldl]
  split
  · rename_i r w' hr
    cases r <;> simp [hr, Task.run]
  · simp [*]
  · simp [*]

theorem run_panics : (Layers.panics next ctx req).run w = match (next ctx req).run w with
    | (.panicked p, w) => (.returned (.error p.failure),
        w.after [.count Counters.panics, .log (Layers.caught ctx p)])
    | fate => fate := by
  simp only [Layers.panics, Task.bind_eq, Task.run_bind, Task.run_catchPanic]
  split
  · rename_i r w' hr
    split at hr <;> cases hr
    · simp [*, Task.run]
    · simp [*, Task.count, Task.log, Task.perform, Task.bind, Task.run, World.after, Panic.failure,
        Layers.caught]
  · rename_i p w' hr
    split at hr <;> cases hr
  · rename_i w' hr
    split at hr <;> cases hr
    simp [*]

end

/-! ## Layers in a row -/

/-- The handler that an application registers. -/
def App.chain (app : App σ) (extra : List (Layer σ)) (handler : Handler σ) : Handler σ :=
  app.layers.foldr (fun layer next => Handler.recorded (layer next)) (handler.within extra)

theorem App.handle_eq (app : App σ) (method : Method) (version path : String) (handler : Handler σ)
    (extra : List (Layer σ)) : app.handle method version path handler extra =
      let (outcome, routes) :=
        app.routes.insert method (Route.versioned version path) (app.chain extra handler)
      (outcome.mapError (SetupFailure.route method (Route.versioned version path)), { app with routes }) := by
  simp only [App.handle, App.chain]

/-- The application's layers stand around the extra ones, and nothing tells where these begin. -/
theorem App.chain_eq_within (app : App σ) (extra : List (Layer σ)) (handler : Handler σ) :
    app.chain extra handler = handler.within (app.layers ++ extra) := by
  simp [App.chain, Handler.within]

end JsonService
