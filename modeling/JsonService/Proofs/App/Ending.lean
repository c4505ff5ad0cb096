import JsonService.Proofs.Layers.Run

/-!
# How a call ends

Whatever the work on a request comes to, `App.State.close` makes one outcome of it. Here is what goes on the
wire, what is signalled and what is logged then.

**Results.**
* `toWire_push_trace`: the trace is the last header on the wire, and no other header depends on it.
* `run_settle`: what a handler comes to decides the ending.
* `conclude_wire`, `conclude_channel`, `conclude_log`: the response of an ending goes out with the trace of its
  request; only a failure that asks for a shutdown signals; what is logged then is no event of a layer.
* `Reaches.call_shared`: a call leaves the counters and the state of the service as the handler that its request
  reaches leaves them.
-/
namespace JsonService

variable {σ : Type}

/-! ## The trace on the wire -/

theorem Uuid.mem_render {u : Uuid} {c : Char} (h : c ∈ u.render.toList) :
    c = '-' ∨ ∃ d, c = Uuid.digitChar d := by
  simp only [Uuid.render, String.toList_ofList, List.mem_append, List.mem_cons] at h
  have digit : c ∈ u.digits.map Uuid.digitChar → ∃ d, c = Uuid.digitChar d := by
    intro hc
    obtain ⟨d, -, rfl⟩ := List.mem_map.mp hc
    exact ⟨d, rfl⟩
  rcases h with (((h | h | h) | h | h) | h | h) | h | h
  · exact Or.inr (digit (List.mem_of_mem_take h))
  · exact Or.inl h
  · exact Or.inr (digit (List.mem_of_mem_drop (List.mem_of_mem_take h)))
  · exact Or.inl h
  · exact Or.inr (digit (List.mem_of_mem_drop (List.mem_of_mem_take h)))
  · exact Or.inl h
  · exact Or.inr (digit (List.mem_of_mem_drop (List.mem_of_mem_take h)))
  · exact Or.inl h
  · exact Or.inr (digit (List.mem_of_mem_drop h))

theorem Uuid.isValue_render (u : Uuid) : Header.isValue u.render = true := by
  have digits : (List.finRange 16).all
      (fun d => (String.utf8EncodeChar (Uuid.digitChar d)).all Header.isValueByte) = true := by decide
  have hyphen : (String.utf8EncodeChar '-').all Header.isValueByte = true := by decide
  simp only [Header.isValue, Text.Utf8.bytes, Text.Utf8.encode, List.all_flatMap, List.all_eq_true]
  intro c hc
  rcases Uuid.mem_render hc with rfl | ⟨d, rfl⟩
  · exact List.all_eq_true.mp hyphen
  · exact List.all_eq_true.mp (List.all_eq_true.mp digits d (List.mem_finRange d))

theorem App.wireHeader_trace (u : Uuid) :
    Response.wireHeader? (traceHeader, u.render) = some (traceHeader, u.render) := by
  have hn : Header.name? traceHeader = some traceHeader := by decide +kernel
  simp [Response.wireHeader?, hn, Uuid.isValue_render]

/-- The trace goes out last, and nothing else on the wire depends on it. -/
theorem App.toWire_push_trace (res : Response) (u : Uuid) :
    (res.push traceHeader u.render).toWire = { status := res.status, body := res.body
                                               headers := res.toWire.headers ++ [(traceHeader, u.render)] } := by
  simp [Response.toWire, Response.push, App.wireHeader_trace]

/-! ## Endings -/

namespace App

/-- What a result comes to that no layer has rendered. -/
def Ending.ofResult : Result → Ending
  | .ok res => .respond res
  | .error e => if e.isShutdown then .shutdown e else .respond e.response

/-- The answer to a failure that asks for a shutdown. -/
def unavailable : Response :=
  (({} : Response.Builder).withStatus .unavailable).json
    (Text.Utf8.bytes (ErrorBody.ofStatus .unavailable).toJson.render)

def Ending.response : Ending → Response
  | .respond res => res
  | .shutdown _ => unavailable

def Ending.signals : Ending → Bool
  | .respond _ => false
  | .shutdown _ => true

/-- What a handler comes to decides the ending; only a failure that no layer has rendered is logged. -/
theorem run_settle (ctx : Context) (result : Result) (w : World σ) :
    (settle ctx result).run w = (.returned (.ofResult result), w.after
      (match result with
        | .ok _ => []
        | .error e =>
          if e.isShutdown then []
          else [.log { level := .error, message := "unhandled error"
                       fields := [ctx.traceField, ("error", .words e.message)] },
                .record e.status])) := by
  cases result with
  | ok res => rfl
  | error e =>
    simp only [settle, Ending.ofResult]
    cases e.isShutdown with
    | true => rfl
    | false => rfl

namespace State

variable (ctx : Context) (ending : Ending) (s : State σ)

def droppedEvent (name : String) : Log.Event where
  level := .warn
  message := "dropping invalid response header"
  fields := [("header", .words name)]

theorem log_foldl (names : List String) :
    names.foldl (fun s name => s.log (droppedEvent name)) s =
      { s with shared.log := s.shared.log ++ names.map droppedEvent } := by
  induction names generalizing s with
  | nil => simp
  | cons name rest ih =>
    rw [List.foldl_cons, ih]
    simp [State.log]

theorem finish_eq (res : Response) : s.finish ctx res =
    ((res.push traceHeader ctx.trace.render).toWire,
      { s with shared.log := s.shared.log ++
                (res.push traceHeader ctx.trace.render).dropped.map droppedEvent }) := by
  rw [← log_foldl]
  rfl

theorem conclude_wire :
    (s.conclude ctx ending).1 = (ending.response.push traceHeader ctx.trace.render).toWire := by
  cases ending <;> simp [conclude, requestShutdown, finish_eq, Ending.response, unavailable]

/-- Only a failure that asks for a shutdown signals, and once. -/
theorem conclude_channel : (s.conclude ctx ending).2.channel =
    if ending.signals then (s.channel.signal .terminate).2 else s.channel := by
  cases ending <;> simp [conclude, requestShutdown, finish_eq, Ending.signals, State.log]

/-- What is logged at the end of a call is no event of a layer. -/
theorem conclude_log : ∃ last : List Log.Event,
    (s.conclude ctx ending).2.shared.log = s.shared.log ++ last ∧
      ∀ e ∈ last, e.message = "signalling shutdown" ∨ e.message = "dropping invalid response header" := by
  cases ending with
  | respond res =>
    refine ⟨_, by simp only [conclude, finish_eq]; rfl, ?_⟩
    intro e he
    obtain ⟨name, -, rfl⟩ := List.mem_map.mp he
    exact Or.inr rfl
  | shutdown e =>
    refine ⟨_, by simp only [conclude, requestShutdown, finish_eq, State.log, List.append_assoc]; rfl, ?_⟩
    intro e he
    rcases List.mem_append.mp he with he | he
    · rw [List.mem_singleton.mp he]
      exact Or.inl rfl
    · obtain ⟨name, -, rfl⟩ := List.mem_map.mp he
      exact Or.inr rfl

theorem close_shared (fate : Task.Fate Ending) (w : World σ) :
    ∃ log, (s.close ctx fate w).2.shared = { w.shared with log } := by
  cases fate with
  | returned ending =>
    simp only [close]
    cases ending with
    | respond res => exact ⟨_, by simp only [conclude, finish_eq]; rfl⟩
    | shutdown e => exact ⟨_, by simp only [conclude, requestShutdown, finish_eq, State.log]; rfl⟩
  | panicked p => exact ⟨_, rfl⟩
  | suspended => exact ⟨_, rfl⟩

end State

/-! ## Calls that reach a handler -/

/-- A request that reaches a handler, and how the handler sees it. -/
structure Reaches (app : App σ) (r : Incoming) (h : Handler σ) (req : Request) : Prop where
  method : Method.ofName? r.method = some req.method
  route : app.routes.lookup req.method r.target.path = .found h req.params
  body : r.body.collect = .ok req.body
  target : req.target = r.target
  headers : req.headers = r.headers
  /-- It came over no connection. -/
  remote : req.remote = none

theorem Reaches.dispatch {app : App σ} {r : Incoming} {h : Handler σ} {req : Request}
    (reaches : app.Reaches r h req) (ctx : Context) :
    app.dispatch ctx r = ((h ctx req).within (span ctx req.method req.path)).bind (settle ctx) := by
  obtain ⟨method, target, headers, body, params, remote⟩ := req
  obtain ⟨hm, hroute, hbody, rfl, rfl, rfl⟩ := reaches
  simp only [App.dispatch, hm, hroute, hbody, Task.bind_eq]

theorem call_eq (app : App σ) (r : Incoming) (s : State σ) (t : Time) : app.call r s t =
    ({ s with contexts := s.contexts + 1 } : State σ).close ⟨Context.traceOf s.contexts, t⟩
      ((app.dispatch ⟨Context.traceOf s.contexts, t⟩ r).run { shared := s.shared }).1
      ((app.dispatch ⟨Context.traceOf s.contexts, t⟩ r).run { shared := s.shared }).2 := by
  simp only [call, State.start]

/-- What follows the handler's run, and the span around it, only log. -/
theorem settle_shared (span : Log.Span) (ctx : Context) (t : Task σ Result) (w : World σ) :
    ∃ log, (((t.within span).bind (settle ctx)).run w).2.shared = { (t.run w).2.shared with log } := by
  rw [Task.run_bind, Task.run_within]
  rcases (t.run w).1 with result | p | _
  · simp only [run_settle]
    cases result with
    | ok res => exact ⟨_, rfl⟩
    | error e =>
      simp only
      cases e.isShutdown with
      | true => exact ⟨_, rfl⟩
      | false => exact ⟨_, rfl⟩
  · exact ⟨_, rfl⟩
  · exact ⟨_, rfl⟩

/-- A call leaves the counters and the state of the service as the handler leaves them. -/
theorem Reaches.call_shared {app : App σ} {r : Incoming} {h : Handler σ} {req : Request}
    (reaches : app.Reaches r h req) (s : State σ) (t : Time) : ∃ log, (app.call r s t).2.shared =
      { ((h ⟨Context.traceOf s.contexts, t⟩ req).run { shared := s.shared }).2.shared with log } := by
  rw [call_eq, reaches.dispatch]
  obtain ⟨log, closed⟩ := State.close_shared ⟨Context.traceOf s.contexts, t⟩
    ({ s with contexts := s.contexts + 1 } : State σ) _ _
  obtain ⟨log', settled⟩ := settle_shared _ ⟨Context.traceOf s.contexts, t⟩
    (h ⟨Context.traceOf s.contexts, t⟩ req) { shared := s.shared }
  exact ⟨log, by rw [closed, settled]⟩

end App

end JsonService
