import JsonService.Proofs.Layers.Paths

/-!
# Requests that reach no handler

A request goes to its handler only if its method is known, its path has a route for that method, and its body can be
read to the end, and these are checked in this order. If one of them fails the request is answered at once: what stands
in the routes does not matter, and nothing is left of the request but perhaps a line of the log. If all of them hold,
the handler sees the whole body, and nothing tells how it was cut.

**Refusals (`Refused`).** Why a request is turned away is a matter of its method, of the routes and of its body, and
not of any handler.

**Results.**
* `dispatch_refused`, `call_refused`: the work on a request that is turned away, and what is left of its call.
* `dispatch_served`: the work on any other request.
* `handler_or_refusal`: which requests are turned away, how, and what the handler sees of the others.
-/
namespace JsonService.App

variable {σ α β : Type}

/-! ## Refusals -/

/-- What is logged of a body that cannot be read. -/
def unreadable (reason : String) (ctx : Context) : Log.Event where
  level := .warn
  message := s!"reading request body: {reason}"
  fields := [ctx.traceField]

/-- A table turns a request away: with a status and a message, and after these events have been logged. -/
inductive Refused (table : Route.Table β) (r : Incoming) : Status → String → (Context → List Log.Event) → Prop
  | method : (∀ m : Method, m.name ≠ r.method) →
      Refused table r .methodNotAllowed "Method Not Allowed" fun _ => []
  | otherMethod : m.name = r.method → table.lookup m r.target.path = .methodNotAllowed →
      Refused table r .methodNotAllowed "Method Not Allowed" fun _ => []
  | route : m.name = r.method → table.lookup m r.target.path = .notFound →
      Refused table r .notFound "Not Found" fun _ => []
  /-- However much of the body has come. -/
  | body : m.name = r.method → table.lookup m r.target.path = .found v params → r.body.failure = some reason →
      Refused table r .badRequest "unable to read request body" fun ctx => [unreadable reason ctx]

/-- A table leads a request to `v`, and this is the request with its whole body. -/
inductive Accepted (table : Route.Table β) (r : Incoming) : β → Request → Prop
  | mk : m.name = r.method → table.lookup m r.target.path = .found v params → r.body.failure = none →
      Accepted table r v
        { method := m, target := r.target, headers := r.headers, body := r.body.chunks.flatten, params }

/-- Some events are logged, and the request is answered. -/
def turnAway (status : Status) (message : String) : List Log.Event → Task σ Ending
  | [] => return .respond (← respondError status { error := message })
  | event :: events => .step (.log event) fun _ => turnAway status message events

/-- What goes on the wire then. -/
def refusal (status : Status) (message : String) (ctx : Context) : Response.Wire where
  status := status
  headers := [("content-type", Response.jsonType), (traceHeader, ctx.trace.render)]
  body := Text.Utf8.bytes ({ error := message } : ErrorBody).toJson.render

section
variable {table : Route.Table β} {app : App σ} {r : Incoming} {status : Status} {message : String}
  {logged : Context → List Log.Event}

theorem ofName?_eq_some {s : String} {m : Method} : Method.ofName? s = some m ↔ m.name = s := by
  constructor
  · intro h
    simpa using List.find?_some h
  · rintro rfl
    exact Method.ofName?_name m

theorem ofName?_eq_none {s : String} : Method.ofName? s = none ↔ ∀ m : Method, m.name ≠ s := by
  rw [Option.eq_none_iff_forall_ne_some]
  exact forall_congr' fun m => not_congr ofName?_eq_some

/-- A request is turned away or goes to a handler. -/
theorem refused_or_accepted (table : Route.Table β) (r : Incoming) :
    (∃ status message logged, Refused table r status message logged) ∨ ∃ v req, Accepted table r v req := by
  cases known : Method.ofName? r.method with
  | none => exact .inl ⟨_, _, _, .method (ofName?_eq_none.mp known)⟩
  | some m =>
    have known := ofName?_eq_some.mp known
    cases route : table.lookup m r.target.path with
    | methodNotAllowed => exact .inl ⟨_, _, _, .otherMethod known route⟩
    | notFound => exact .inl ⟨_, _, _, .route known route⟩
    | found v params =>
      cases failure : r.body.failure with
      | some reason => exact .inl ⟨_, _, _, .body known route failure⟩
      | none => exact .inr ⟨v, _, .mk known route failure⟩

theorem Accepted.unique {v v' : β} {req req' : Request} (h : Accepted table r v req) (h' : Accepted table r v' req') :
    v = v' ∧ req = req' := by
  obtain ⟨known, found, whole⟩ := h
  obtain ⟨known', found', whole'⟩ := h'
  obtain rfl := Option.some.inj ((ofName?_eq_some.mpr known).symm.trans (ofName?_eq_some.mpr known'))
  rw [found] at found'
  cases found'
  exact ⟨rfl, rfl⟩

/-- What the routes lead to does not matter to a refusal. -/
theorem Refused.map (h : Refused table r status message logged) (g : β → α) :
    Refused (table.map g) r status message logged := by
  cases h with
  | method unknown => exact .method unknown
  | otherMethod known route => exact .otherMethod known (by rw [Route.Table.lookup_map, route]; rfl)
  | route known route => exact .route known (by rw [Route.Table.lookup_map, route]; rfl)
  | body known route failure => exact .body known (by rw [Route.Table.lookup_map, route]; rfl) failure

theorem Accepted.map {v : β} {req : Request} (h : Accepted table r v req) (g : β → α) :
    Accepted (table.map g) r (g v) req := by
  obtain ⟨known, route, whole⟩ := h
  exact .mk known (by rw [Route.Table.lookup_map, route]; rfl) whole

/-! ## The work on a request -/

/-- A request that is turned away is answered at once. -/
theorem dispatch_refused (h : Refused app.routes r status message logged) (ctx : Context) :
    app.dispatch ctx r = turnAway status message (logged ctx) := by
  cases h with
  | method unknown =>
    simp only [dispatch, ofName?_eq_none.mpr unknown]
    rfl
  | otherMethod known route =>
    simp only [dispatch, ofName?_eq_some.mpr known, route]
    rfl
  | route known route =>
    simp only [dispatch, ofName?_eq_some.mpr known, route]
    rfl
  | body known route failure =>
    simp only [dispatch, ofName?_eq_some.mpr known, route, Body.collect, failure]
    rfl

/-- Any other request goes to its handler, which sees the whole body. -/
theorem dispatch_served {h : Handler σ} {req : Request} (accepted : Accepted app.routes r h req) (ctx : Context) :
    app.dispatch ctx r = ((h ctx req).within (span ctx req.method req.path)).bind (settle ctx) := by
  obtain ⟨known, route, whole⟩ := accepted
  simp only [dispatch, ofName?_eq_some.mpr known, route, Body.collect, whole, Task.bind_eq]

/-- Nothing is counted or signalled on the way to the answer. -/
theorem surely_turnAway (events : List Log.Event) : ∃ res,
    Task.Surely (σ := σ) [] (.ok (.respond res)) (turnAway status message events) := by
  induction events with
  | nil => exact ⟨_, .quiet (fun _ => Task.surely_done _) rfl⟩
  | cons event events ih =>
    obtain ⟨res, sure⟩ := ih
    exact ⟨res, .quiet (fun _ => sure) rfl⟩

theorem run_turnAway (events : List Log.Event) (w : World σ) :
    (turnAway status message events).run w =
      (.returned (.respond ((({} : Response.Builder).withStatus status).json
          (Text.Utf8.bytes ({ error := message } : ErrorBody).toJson.render))),
        { w with request.status := some status, shared.log := w.shared.log ++ events }) := by
  induction events generalizing w with
  | nil => simp [turnAway, respondError, Task.record, Task.perform, Task.bind, Task.run, Effect.apply]
  | cons event events ih => simp [turnAway, Task.run, ih, Effect.apply]

theorem conclude_refusal (ctx : Context) (s : State σ) :
    s.conclude ctx (.respond ((({} : Response.Builder).withStatus status).json
        (Text.Utf8.bytes ({ error := message } : ErrorBody).toJson.render))) = (refusal status message ctx, s) := by
  have type : Response.wireHeader? ("content-type", Response.jsonType) = some ("content-type", Response.jsonType) := by
    decide +kernel
  simp [State.conclude, State.finish_eq, refusal, Response.toWire, Response.dropped, Response.push,
    Response.Builder.json, Response.Builder.finish, Response.Builder.withStatus, type, wireHeader_trace]

/-- The call of a request that is turned away leaves the counters, the state of the service and the channel as they
were. -/
theorem call_refused (h : Refused app.routes r status message logged) (s : State σ) (arrived : Time) :
    let ctx : Context := ⟨Context.traceOf s.contexts, arrived⟩
    app.call r s arrived = (⟨.answered (refusal status message ctx), ctx, ⟨some status, true⟩⟩,
      { s with contexts := s.contexts + 1, shared.log := s.shared.log ++ logged ctx }) := by
  intro ctx
  rw [call_eq, dispatch_refused h, run_turnAway]
  simp only [State.close, conclude_refusal]
  rfl

/-! ## Requests with and without a handler -/

/-- The request is answered with a status and a message, and nothing else happens but that some events are logged. -/
structure TurnedAway (app : App σ) (r : Incoming) (status : Status) (message : String)
    (logged : Context → List Log.Event) : Prop where
  /-- The counters, the state of the service and the channel stay as they are. -/
  call : ∀ (s : State σ) (arrived : Time), let ctx : Context := ⟨Context.traceOf s.contexts, arrived⟩
    app.call r s arrived = (⟨.answered (refusal status message ctx), ctx, ⟨some status, true⟩⟩,
      { s with contexts := s.contexts + 1, shared.log := s.shared.log ++ logged ctx })
  /-- No layer and no handler runs: it would make no difference if others stood in their place. -/
  alike : ∀ (g : Handler σ → Handler σ) (ctx : Context),
    ({ app with routes := app.routes.map g } : App σ).dispatch ctx r = app.dispatch ctx r
  /-- Nor is anything counted or signalled if other requests take turns with this one. -/
  turns : ∀ ctx, ∃ res, Task.Surely [] (.ok (.respond res)) (app.dispatch ctx r)

/-- The request goes to a handler, which sees its whole body. -/
structure Served (app : App σ) (r : Incoming) (h : Handler σ) (req : Request) : Prop where
  whole : r.body.failure = none ∧ req.body = r.body.chunks.flatten
  work : ∀ ctx, app.dispatch ctx r = ((h ctx req).within (span ctx req.method req.path)).bind (settle ctx)
  /-- However the same bytes are cut, the work on the request is the same, and so is every call. -/
  recut : ∀ body : Body, body.failure = none → body.chunks.flatten = r.body.chunks.flatten →
    (∀ ctx, app.dispatch ctx { r with body } = app.dispatch ctx r) ∧
      ∀ s arrived, app.call { r with body } s arrived = app.call r s arrived

theorem turnedAway_of_refused (h : Refused app.routes r status message logged) :
    TurnedAway app r status message logged where
  call := call_refused h
  alike g ctx := by
    have mapped : Refused ({ app with routes := app.routes.map g } : App σ).routes r status message logged := h.map g
    rw [dispatch_refused mapped, dispatch_refused h]
  turns ctx := by
    rw [dispatch_refused h]
    exact surely_turnAway _

theorem served_of_accepted {h : Handler σ} {req : Request} (accepted : Accepted app.routes r h req) :
    Served app r h req := by
  refine ⟨?_, dispatch_served accepted, fun body proper same => ?_⟩
  · obtain ⟨-, -, proper⟩ := accepted
    exact ⟨proper, rfl⟩
  have accepted' : Accepted app.routes { r with body } h req := by
    obtain ⟨known, route, -⟩ := accepted
    rw [← same]
    exact .mk (r := { r with body }) known route proper
  have work : ∀ ctx, app.dispatch ctx { r with body } = app.dispatch ctx r := fun ctx => by
    rw [dispatch_served accepted', dispatch_served accepted]
  exact ⟨work, fun s arrived => by rw [call_eq, call_eq, work]⟩

end

/-- A request whose method is unknown, that has no route or whose body breaks off is turned away and has no effect.
Every other request goes to its handler with its whole body, however that was cut. -/
theorem handler_or_refusal (app : App σ) (r : Incoming) :
    ((∃ status message logged, Refused app.routes r status message logged) ∨ ∃ h req, Accepted app.routes r h req) ∧
    (∀ status message logged, Refused app.routes r status message logged → TurnedAway app r status message logged) ∧
    ∀ h req, Accepted app.routes r h req → Served app r h req :=
  ⟨refused_or_accepted app.routes r, fun _ _ _ => turnedAway_of_refused, fun _ _ => served_of_accepted⟩

def wreckedApp : App Unit :=
  (handle { layers := [Layers.logger, Layers.metrics] } .post "v1" "wrecks" fun _ _ => .panicked .other).2

def brokenOff : Incoming where
  method := "POST"
  target := { origin := "", path := "/v1/wrecks", query := none }
  body := { chunks := [[0x7b], [0x7d]], failure := some "reset" }

/-- It does not get to the handler; with its body in one piece it does. -/
theorem handler_or_refusal_broken_off :
    TurnedAway wreckedApp brokenOff .badRequest "unable to read request body" (fun ctx => [unreadable "reset" ctx]) ∧
      Served wreckedApp { brokenOff with body := .ofBytes [0x7b, 0x7d] }
        (wreckedApp.chain [] fun _ _ => .panicked .other)
        { method := .post, target := brokenOff.target, body := [0x7b, 0x7d] } := by
  have route : wreckedApp.routes.lookup .post brokenOff.target.path =
      .found (wreckedApp.chain [] fun _ _ => .panicked .other) [] := by
    rw [wreckedApp, handle_eq]
    rfl
  exact ⟨(handler_or_refusal wreckedApp brokenOff).2.1 _ _ _ (.body rfl route rfl),
    (handler_or_refusal wreckedApp _).2.2 _ _ (.mk rfl route rfl)⟩

end JsonService.App
