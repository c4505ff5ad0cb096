import JsonService.Proofs.App.Ending

/-!
# The log and the wire

Every layer records the status of the response it hands on, and so do the functions that respond, into one
cell that everyone shares who works on the request. A logger reads that cell after the handler inside of it
is done. Here is why what it reads is what the client gets, however often the cell was written before.

**The cell (`Told`).** Once the layer for errors is done there is a response, and the cell holds its status,
or a failure that asks for a shutdown, and the cell holds 503. Layers that count and log outside of it hand
the outcome on and leave the cell as it is.

**Results.**
* `told_errors`: the layer for errors establishes `Told`, whatever the handler inside of it has recorded.
* `run_around`: loggers and counters around a handler that keeps to `Told` do too, and each logger says that
  the request is over, with the status that was told.
* `log_agrees_with_wire`: so what the loggers say, what goes on the wire and what is left of the request are
  one status.
-/
namespace JsonService

variable {σ : Type}

/-- The status that a client sees of a result. -/
def answerStatus : Result → Status
  | .ok res => res.status
  | .error e => e.answerStatus

/-- A layer that only looks on: it logs or counts. -/
def Builtin.looksOn (b : Builtin) : Prop := b = .logger ∨ b = .metrics

/-- What such a layer does before it calls the handler inside of it. -/
def Builtin.enters (ctx : Context) (req : Request) : Builtin → List (Effect σ)
  | .logger => [.log (Layers.started ctx req)]
  | .metrics => [.count Counters.requests]
  | _ => []

/-- The world in which layers that only look on call the handler inside of them. -/
def World.entered (ctx : Context) (req : Request) (pre : List Builtin) (w : World σ) : World σ :=
  w.after (pre.flatMap (Builtin.enters ctx req))

/-- What is left of a request after the layer for errors: a response or a failure that asks for a shutdown,
and its status in the cell. -/
def Told (result : Result) (w : World σ) : Prop :=
  w.request.status = some (answerStatus result) ∧ ∀ e, result = .error e → e.isShutdown = true

/-! ## The world around a handler -/

theorem World.entered_cons (ctx : Context) (req : Request) (b : Builtin) (pre : List Builtin) (w : World σ) :
    w.entered ctx req (b :: pre) = (w.after (b.enters ctx req)).entered ctx req pre := by
  simp [World.entered, World.after]

/-- Each logger says that the request starts, and nothing else is logged. -/
theorem World.entered_log (ctx : Context) (req : Request) (pre : List Builtin) (w : World σ) :
    (w.entered ctx req pre).shared.log =
      w.shared.log ++ List.replicate (pre.count .logger) (Layers.started ctx req) := by
  induction pre generalizing w with
  | nil => simp [World.entered, World.after]
  | cons b pre ih =>
    rw [World.entered_cons, ih]
    cases b <;> simp [Builtin.enters, World.after, Effect.apply, List.replicate_succ]

/-! ## The layer for errors -/

section
variable {h next : Handler σ} {ctx : Context} {req : Request} {w w' : World σ} {result : Result}

/-- The layer for errors leaves a response or a failure that asks for a shutdown, of the status that the
client sees of what the handler inside of it came to, and leaves that status in the cell. -/
theorem told_errors (hr : (next ctx req).run w = (.returned result, w')) :
    ∃ result' w'', (Handler.recorded (Layers.errors next) ctx req).run w = (.returned result', w'') ∧
      answerStatus result' = answerStatus result ∧ Told result' w'' := by
  rw [run_recorded, run_errors, hr]
  cases result with
  | ok res =>
    refine ⟨.ok res, _, rfl, rfl, rfl, ?_⟩
    intro e he
    cases he
  | error e =>
    simp only [Failure.rendered]
    cases hs : e.isShutdown with
    | true =>
      refine ⟨.error e, _, rfl, rfl, rfl, ?_⟩
      intro f hf
      cases hf
      exact hs
    | false =>
      have status : e.response.status = e.answerStatus := by
        simp [Failure.response, Failure.answerStatus, hs, Response.Builder.json, Response.Builder.finish,
          Response.Builder.withStatus]
      refine ⟨.ok e.response, _, rfl, status, rfl, ?_⟩
      intro e he
      cases he

/-- A layer that only looks on hands the outcome on and leaves the cell as it is; a logger says that the request
is over, with the status in the cell. -/
theorem run_lookOn {b : Builtin} (hb : b.looksOn) (told : Told result w')
    (hr : (next ctx req).run (w.after (b.enters ctx req)) = (.returned result, w')) :
    ∃ w'', (Handler.recorded (b.layer next) ctx req).run w = (.returned result, w'') ∧ Told result w'' ∧
      w''.shared.log = w'.shared.log ++
        List.replicate ([b].count .logger) (Layers.completed ctx req (answerStatus result).code) := by
  obtain ⟨status, shutdown⟩ := told
  rcases hb with rfl | rfl
  · simp only [Builtin.enters] at hr
    simp only [Builtin.layer, run_recorded, run_logger, hr, status]
    cases result with
    | ok res => exact ⟨_, rfl, ⟨rfl, shutdown⟩, rfl⟩
    | error e => exact ⟨_, rfl, ⟨status, shutdown⟩, rfl⟩
  · simp only [Builtin.enters] at hr
    simp only [Builtin.layer, run_recorded, run_metrics, hr]
    cases result with
    | ok res => exact ⟨_, rfl, ⟨rfl, shutdown⟩, (List.append_nil _).symm⟩
    | error e => exact ⟨_, rfl, ⟨status, shutdown⟩, (List.append_nil _).symm⟩

theorem run_around {pre : List Builtin} (hpre : ∀ b ∈ pre, b.looksOn) (told : Told result w')
    (hr : (next ctx req).run (w.entered ctx req pre) = (.returned result, w')) :
    ∃ w'', ((pre.foldr (fun b next => Handler.recorded (b.layer next)) next) ctx req).run w =
        (.returned result, w'') ∧ Told result w'' ∧
      w''.shared.log = w'.shared.log ++
        List.replicate (pre.count .logger) (Layers.completed ctx req (answerStatus result).code) := by
  induction pre generalizing w with
  | nil => exact ⟨w', hr, told, (List.append_nil _).symm⟩
  | cons b pre ih =>
    rw [World.entered_cons] at hr
    obtain ⟨v, run, told, log⟩ := ih (fun c hc => hpre c (List.mem_cons_of_mem b hc)) hr
    obtain ⟨v', run', told', log'⟩ := run_lookOn (hpre b List.mem_cons_self) told run
    refine ⟨v', run', told', ?_⟩
    rw [log', log, List.append_assoc, List.replicate_append_replicate, List.count_singleton, List.count_cons]

end

/-! ## Calls -/

namespace App

/-- What loggers and counters around the layer for errors log, around what is logged inside. -/
def loggedAround (ctx : Context) (req : Request) (pre : List Builtin) (inside : List Log.Event)
    (status : Status) : List Log.Event :=
  List.replicate (pre.count .logger) (Layers.started ctx req) ++ inside ++
    List.replicate (pre.count .logger) (Layers.completed ctx req status.code)

section
variable {app : App σ} {extra post : List (Layer σ)} {pre : List Builtin} {h : Handler σ}
  {ctx : Context} {req : Request} {w₀ w w' : World σ} {result : Result}

theorem chain_errors (h : Handler σ)
    (layers : app.layers ++ extra = pre.map Builtin.layer ++ Layers.errors :: post) :
    app.chain extra h = pre.foldr (fun b next => Handler.recorded (b.layer next))
      (Handler.recorded (Layers.errors (h.within post))) := by
  rw [chain_eq_within, layers, Handler.within, List.foldr_append, List.foldr_map]
  rfl

/-- If what is inside of the layer for errors comes to a result, so does the chain, and it is told. -/
theorem run_chain (hpre : ∀ b ∈ pre, b.looksOn)
    (layers : app.layers ++ extra = pre.map Builtin.layer ++ Layers.errors :: post)
    (hw : w = w₀.entered ctx req pre) (hr : ((h.within post) ctx req).run w = (.returned result, w')) :
    ∃ result' v, (app.chain extra h ctx req).run w₀ = (.returned result', v) ∧
      answerStatus result' = answerStatus result ∧ Told result' v ∧
      (app.chain extra h ctx req).events w₀ = loggedAround ctx req pre
        ((Handler.recorded (Layers.errors (h.within post)) ctx req).events w) (answerStatus result) := by
  subst hw
  obtain ⟨result', v, run, status, told⟩ := told_errors hr
  have inside := Task.run_log (Handler.recorded (Layers.errors (h.within post)) ctx req) (w₀.entered ctx req pre)
  rw [run, World.entered_log] at inside
  obtain ⟨v', run', told', log⟩ := run_around hpre told run
  rw [← chain_errors h layers] at run'
  have whole := Task.run_log (app.chain extra h ctx req) w₀
  rw [run', log, inside, status] at whole
  refine ⟨result', v', run', status, told', ?_⟩
  simp only [List.append_assoc] at whole
  have events := List.append_cancel_left whole
  rw [← events, loggedAround, List.append_assoc]

/-- A result that was told ends the request with a response of its status, and nothing more is logged. -/
theorem settle_told (ctx : Context) (told : Told result w) :
    (settle ctx result).run w = (.returned (.ofResult result), w) ∧
      (Ending.ofResult result).response.status = answerStatus result := by
  rw [run_settle]
  cases result with
  | ok res => exact ⟨rfl, rfl⟩
  | error e =>
    have hs := told.2 e rfl
    simp only [hs, if_true, Ending.ofResult, answerStatus, Failure.answerStatus]
    exact ⟨rfl, rfl⟩

end

theorem State.close_returned (ctx : Context) (ending : Ending) (w : World σ) (s : State σ) :
    ∃ wire last, (s.close ctx (.returned ending) w).1.outcome = .answered wire ∧
      wire.status = ending.response.status ∧
      (s.close ctx (.returned ending) w).1.request.status = some wire.status ∧
      (s.close ctx (.returned ending) w).2.shared.log = w.shared.log ++ last ∧
      ∀ e ∈ last, e.message = "signalling shutdown" ∨ e.message = "dropping invalid response header" := by
  obtain ⟨last, log, messages⟩ := State.conclude_log ctx ending { s with shared := w.shared }
  refine ⟨(State.conclude ctx ending { s with shared := w.shared }).1, last, rfl, ?_, rfl, log, messages⟩
  rw [State.conclude_wire]
  rfl

/-- The log never disagrees with the wire: let some loggers and counters stand around the layer for errors, and
any layers and any handler inside of it. If what is inside comes to a result, the request is answered with the
status that a client sees of it. Every logger says once that the request is over, with that status, and that
status is what is left of the request. -/
theorem log_agrees_with_wire {app : App σ} {extra post : List (Layer σ)} {pre : List Builtin} {h : Handler σ}
    (hpre : ∀ b ∈ pre, b.looksOn)
    (layers : app.layers ++ extra = pre.map Builtin.layer ++ Layers.errors :: post)
    {r : Incoming} {req : Request} (reaches : app.Reaches r (app.chain extra h) req)
    (s : State σ) (t : Time) {ctx : Context} (hctx : ctx = ⟨Context.traceOf s.contexts, t⟩)
    {w : World σ} (hw : w = World.entered ctx req pre { shared := s.shared })
    {result : Result} {w' : World σ} (hr : ((h.within post) ctx req).run w = (.returned result, w')) :
    ∃ wire last, (app.call r s t).1.outcome = .answered wire ∧ wire.status = answerStatus result ∧
      (app.call r s t).1.request.status = some wire.status ∧
      (app.call r s t).2.shared.log = s.shared.log ++
        (loggedAround ctx req pre ((Handler.recorded (Layers.errors (h.within post)) ctx req).events w)
          wire.status).map (Log.Event.inSpan (span ctx req.method req.path)) ++ last ∧
      ∀ e ∈ last, e.message ≠ "request completed" := by
  obtain ⟨result', v, run, status, told, events⟩ := run_chain hpre layers hw hr
  rw [call_eq, ← hctx, reaches.dispatch, Task.run_bind, Task.run_within, run, events]
  -- the cell is the same within a span
  have told' : ∀ log, Told result' (v.setLog log) := fun _ => told
  obtain ⟨settled, response⟩ := settle_told ctx (told' (s.shared.log ++
    (loggedAround ctx req pre ((Handler.recorded (Layers.errors (h.within post)) ctx req).events w)
      (answerStatus result)).map (Log.Event.inSpan (span ctx req.method req.path))))
  simp only [settled]
  obtain ⟨wire, last, answered, wireStatus, left, log, messages⟩ :=
    State.close_returned ctx (.ofResult result') _ { s with contexts := s.contexts + 1 }
  have hstatus : wire.status = answerStatus result := by rw [wireStatus, response, status]
  refine ⟨wire, last, answered, hstatus, left, ?_, ?_⟩
  · rw [log, hstatus]
    rfl
  · intro e he
    rcases messages e he with h | h
    · rw [h]
      decide
    · rw [h]
      decide

def stopping : Handler Unit := fun _ _ => do
  Task.record .ok
  return .error (.shutdown "no more")

def stoppingApp : App Unit :=
  (({ layers := [Layers.logger, Layers.errors, Layers.metrics, Layers.panics] } : App Unit).handle .get "" "stop"
    stopping).2

def stoppingRequest : Incoming := { target := { origin := "", path := "/stop", query := none } }

/-- The handler has recorded 200 when it asks for a shutdown; logger and wire say 503. -/
theorem log_agrees_with_wire_stopping :
    ∃ wire, (stoppingApp.call stoppingRequest { shared := { service := () } } .epoch).1.outcome = .answered wire ∧
      wire.status = .unavailable := by
  have looksOn : ∀ b ∈ [Builtin.logger], b.looksOn := by simp [Builtin.looksOn]
  have layers : stoppingApp.layers ++ [] =
      [Builtin.logger].map Builtin.layer ++ Layers.errors :: [Layers.metrics, Layers.panics] := rfl
  have reaches : stoppingApp.Reaches stoppingRequest (stoppingApp.chain [] stopping)
      { method := .get, target := stoppingRequest.target } := ⟨rfl, rfl, rfl, rfl, rfl, rfl⟩
  obtain ⟨wire, -, answered, status, -⟩ := log_agrees_with_wire looksOn layers reaches
    { shared := { service := () } } .epoch rfl rfl rfl
  exact ⟨wire, answered, status⟩

end App

end JsonService
