import JsonService.Proofs.App.Ending
import JsonService.Proofs.Route.Values

/-!
# Built-in layers and what the client gets

Built-in layers log, count, record and render, and may stand in any order and number. What the client gets
does not depend on them, but for one thing: whether one of them catches panics.

**Settled handlers.** `Handler.Settled h f` says that what `h` comes to is a function `f` of the request: the
context and the world, which layers may change before they call it, do not matter.

**Results.**
* `settled_within`: within built-in layers a settled handler is settled, and each layer does to its outcome
  what `Builtin.onFate` says.
* `ending_foldr`: the ending of a request depends only on whether panics are caught, since a failure that no
  layer renders is rendered in the end, in the same way (`unrendered_ending`).
* `same_answer`: two services with the same handlers give the same answers and signal alike, if for each route
  either both catch panics or none does.
-/
namespace JsonService

variable {σ α β γ : Type}

def Task.Fate.map (f : α → β) : Task.Fate α → Task.Fate β
  | .returned a => .returned (f a)
  | .panicked p => .panicked p
  | .suspended => .suspended

def Task.Fate.of : Except Panic α → Task.Fate α
  | .ok a => .returned a
  | .error p => .panicked p

/-- What a handler comes to is a function of the request. -/
def Handler.Settled (h : Handler σ) (f : Request → Task.Fate Result) : Prop :=
  ∀ ctx req w, ((h ctx req).run w).1 = f req

/-- What a built-in layer does to the outcome of the handler inside of it. -/
def Builtin.onFate : Builtin → Task.Fate Result → Task.Fate Result
  | .errors, .returned (.error e) => .returned e.rendered
  | .panics, .panicked p => .returned (.error p.failure)
  | _, fate => fate

/-! ## Settled handlers within layers -/

section
variable {h : Handler σ} {f : Request → Task.Fate Result}

theorem settled_recorded (hs : h.Settled f) : (Handler.recorded h).Settled f := by
  intro ctx req w
  rw [run_recorded, ← hs ctx req w]
  split <;> simp_all

theorem settled_layer (hs : h.Settled f) (b : Builtin) :
    Handler.Settled (b.layer h) fun req => b.onFate (f req) := by
  intro ctx req w
  -- the world in which the layer calls the handler
  have inner : ∀ w', ∃ w'', (h ctx req).run w' = (f req, w'') :=
    fun w' => ⟨_, Prod.ext (hs ctx req w') rfl⟩
  cases b with
  | logger =>
    obtain ⟨w', hw⟩ := inner (w.after [.log (Layers.started ctx req)])
    simp only [Builtin.layer, run_logger, hw]
    rcases f req with (e | res) | p | _ <;> rfl
  | errors =>
    obtain ⟨w', hw⟩ := inner w
    simp only [Builtin.layer, run_errors, hw]
    rcases f req with (e | res) | p | _ <;> rfl
  | metrics =>
    obtain ⟨w', hw⟩ := inner (w.after [.count Counters.requests])
    simp only [Builtin.layer, run_metrics, hw]
    rcases f req with (e | res) | p | _ <;> rfl
  | panics =>
    obtain ⟨w', hw⟩ := inner w
    simp only [Builtin.layer, run_panics, hw]
    rcases f req with (e | res) | p | _ <;> rfl

/-- Within built-in layers a settled handler is settled. -/
theorem settled_within (hs : h.Settled f) (stack : List Builtin) :
    (h.within (stack.map Builtin.layer)).Settled fun req => stack.foldr Builtin.onFate (f req) := by
  induction stack with
  | nil => exact settled_recorded hs
  | cons b stack ih => exact settled_recorded (settled_layer ih b)

end

/-! ## Endings within layers -/

namespace App

/-- The ending of a request whose panics are caught. -/
def caught : Task.Fate Ending → Task.Fate Ending
  | .panicked p => .returned (.ofResult (.error p.failure))
  | fate => fate

/-- A layer changes the ending of a request only if it catches a panic. -/
theorem ending_onFate (b : Builtin) (fate : Task.Fate Result) : (b.onFate fate).map Ending.ofResult =
    if b = .panics then caught (fate.map Ending.ofResult) else fate.map Ending.ofResult := by
  cases b with
  | logger | metrics => rfl
  | panics => rcases fate with _ | p | _ <;> rfl
  | errors =>
    rcases fate with (e | res) | p | _
    · -- rendered here or in the end, a failure has the same response
      simp only [Builtin.onFate, Task.Fate.map, Failure.rendered, Ending.ofResult]
      cases hs : e.isShutdown <;> simp [hs]
    all_goals rfl

theorem caught_caught (fate : Task.Fate Ending) : caught (caught fate) = caught fate := by
  cases fate <;> rfl

/-- The ending of a request within layers depends only on whether one of them catches panics. -/
theorem ending_foldr (stack : List Builtin) (fate : Task.Fate Result) :
    (stack.foldr Builtin.onFate fate).map Ending.ofResult =
      if .panics ∈ stack then caught (fate.map Ending.ofResult) else fate.map Ending.ofResult := by
  induction stack with
  | nil => simp
  | cons b stack ih =>
    rw [List.foldr_cons, ending_onFate, ih]
    by_cases hb : b = .panics <;> by_cases hs : .panics ∈ stack <;>
      simp [hb, hs, caught_caught, eq_comm (a := Builtin.panics)]

/-! ## Services -/

/-- Where a route is registered, and its handler. -/
structure Endpoint (σ : Type) where
  method : Method
  version : String
  path : String
  handler : Handler σ

/-- Registers some endpoints one after another, each within the application's layers and layers of its own. An
endpoint that is refused is passed over. -/
def registerAll (app : App σ) (routes : List (Endpoint σ × List (Layer σ))) : App σ :=
  routes.foldl (fun app r => (app.handle r.1.method r.1.version r.1.path r.1.handler r.2).2) app

/-- Registers some endpoints one after another, each within the application's layers and built-in layers of its
own. An endpoint that is refused is passed over. -/
def register (app : App σ) (routes : List (Endpoint σ × List Builtin)) : App σ :=
  routes.foldl (fun app r =>
    (app.handle r.1.method r.1.version r.1.path r.1.handler (r.2.map Builtin.layer)).2) app

/-- A service whose layers are all built-in: those around every route, and those of each route. -/
def ofBuiltins (wrap : List Builtin) (routes : List (Endpoint σ × List Builtin)) : App σ :=
  register { layers := wrap.map Builtin.layer } routes

/-- The handler of an endpoint within all its layers. -/
def Endpoint.within (e : Endpoint σ) (stack : List Builtin) : Handler σ :=
  e.handler.within (stack.map Builtin.layer)

/-- The table of some endpoints, each leading to whatever it carries. -/
def endpointTable (endpoint : β → Endpoint σ) (table : Route.Table β) (routes : List β) : Route.Table β :=
  routes.foldl (fun t r => (t.insert (endpoint r).method
    (Route.versioned (endpoint r).version (endpoint r).path) r).2) table

theorem register_eq_all (app : App σ) (routes : List (Endpoint σ × List Builtin)) :
    register app routes = registerAll app (routes.map fun r => (r.1, r.2.map Builtin.layer)) := by
  rw [register, registerAll, List.foldl_map]

theorem registerAll_cons (app : App σ) (r : Endpoint σ × List (Layer σ)) (routes : List (Endpoint σ × List (Layer σ))) :
    registerAll app (r :: routes) =
      registerAll (app.handle r.1.method r.1.version r.1.path r.1.handler r.2).2 routes := by
  simp only [registerAll, List.foldl_cons]

theorem endpointTable_cons (endpoint : β → Endpoint σ) (table : Route.Table β) (r : β) (routes : List β) :
    endpointTable endpoint table (r :: routes) =
      endpointTable endpoint (table.insert (endpoint r).method
        (Route.versioned (endpoint r).version (endpoint r).path) r).2 routes := by
  simp only [endpointTable, List.foldl_cons]

theorem endpointTable_map (endpoint : γ → Endpoint σ) (f : β → γ) (table : Route.Table β) (routes : List β) :
    endpointTable endpoint (table.map f) (routes.map f) =
      (endpointTable (fun r => endpoint (f r)) table routes).map f := by
  induction routes generalizing table with
  | nil => rfl
  | cons r routes ih =>
    rw [List.map_cons, endpointTable_cons, endpointTable_cons, ← ih, Route.Table.insert_map]

/-- What a request finds is one of the routes. -/
theorem mem_of_endpointTable {endpoint : β → Endpoint σ} {routes : List β} {method : Method} {path : String} {r : β}
    {params : List (String × String)}
    (found : (endpointTable endpoint {} routes).lookup method path = .found r params) : r ∈ routes := by
  have same := endpointTable_map endpoint Subtype.val {} routes.attach
  rw [Route.Table.map_empty, List.attach_map_subtype_val] at same
  rw [same, Route.Table.lookup_map] at found
  generalize (endpointTable _ {} routes.attach).lookup method path = answer at found
  cases answer with
  | found r' params =>
    simp only [Route.Lookup.map, Route.Lookup.found.injEq] at found
    exact found.1 ▸ r'.property
  | methodNotAllowed | notFound => cases found

/-- The handlers of an application stand in its table where their endpoints stand. -/
theorem registerAll_eq (wrap : List (Layer σ)) (endpoint : β → Endpoint σ) (extra : β → List (Layer σ))
    (table : Route.Table β) (routes : List β) :
    registerAll { layers := wrap, routes := table.map fun r => (endpoint r).handler.within (wrap ++ extra r) }
        (routes.map fun r => (endpoint r, extra r)) =
      { layers := wrap
        routes := (endpointTable endpoint table routes).map fun r =>
          (endpoint r).handler.within (wrap ++ extra r) } := by
  induction routes generalizing table with
  | nil => rfl
  | cons r routes ih =>
    rw [List.map_cons, registerAll_cons, endpointTable_cons, ← ih, handle_eq, chain_eq_within]
    have h := Route.Table.insert_map (fun r => (endpoint r).handler.within (wrap ++ extra r)) table
      (endpoint r).method (Route.versioned (endpoint r).version (endpoint r).path) r
    simp only [h]

theorem register_eq (wrap : List Builtin) (endpoint : β → Endpoint σ) (extra : β → List Builtin)
    (table : Route.Table β) (routes : List β) :
    register { layers := wrap.map Builtin.layer
               routes := table.map fun r => (endpoint r).within (wrap ++ extra r) }
        (routes.map fun r => (endpoint r, extra r)) =
      { layers := wrap.map Builtin.layer
        routes := (endpointTable endpoint table routes).map fun r => (endpoint r).within (wrap ++ extra r) } := by
  rw [register_eq_all, List.map_map]
  simpa only [Endpoint.within, List.map_append, Function.comp_def] using
    registerAll_eq (wrap.map Builtin.layer) endpoint (fun r => (extra r).map Builtin.layer) table routes

theorem ofBuiltins_routes (wrap : List Builtin) (endpoint : β → Endpoint σ) (extra : β → List Builtin)
    (routes : List β) :
    (ofBuiltins wrap (routes.map fun r => (endpoint r, extra r))).routes =
      (endpointTable endpoint {} routes).map fun r => (endpoint r).within (wrap ++ extra r) := by
  have h := register_eq wrap endpoint extra {} routes
  rw [Route.Table.map_empty] at h
  rw [ofBuiltins, h]

/-! ## Answers -/

/-- What a handler comes to in its span decides the ending of the request. -/
theorem fate_settle (span : Log.Span) (ctx : Context) (t : Task σ Result) (w : World σ) :
    (((t.within span).bind (settle ctx)).run w).1 = (t.run w).1.map Ending.ofResult := by
  rw [Task.run_bind, Task.run_within]
  rcases (t.run w).1 with result | p | _
  · simp only [run_settle]
    rfl
  all_goals rfl

/-- What relates the endings to which handlers bring a request relates those to which their applications do. -/
theorem dispatch_related {R : Task.Fate Ending → Task.Fate Ending → Prop} (hrefl : ∀ fate, R fate fate)
    {app₁ app₂ : App σ} {table : Route.Table β} {g₁ g₂ : β → Handler σ}
    (h₁ : app₁.routes = table.map g₁) (h₂ : app₂.routes = table.map g₂)
    {ctx₁ ctx₂ : Context} {w₁ w₂ : World σ}
    (hg : ∀ v req, R (((g₁ v ctx₁ req).run w₁).1.map Ending.ofResult)
      (((g₂ v ctx₂ req).run w₂).1.map Ending.ofResult)) (r : Incoming) :
    R ((app₁.dispatch ctx₁ r).run w₁).1 ((app₂.dispatch ctx₂ r).run w₂).1 := by
  simp only [dispatch, h₁, h₂, Route.Table.lookup_map]
  cases Method.ofName? r.method with
  | none => exact hrefl _
  | some method =>
    simp only
    cases table.lookup method r.target.path with
    | methodNotAllowed => exact hrefl _
    | notFound => exact hrefl _
    | found v params =>
      simp only [Route.Lookup.map]
      cases r.body.collect with
      | error reason => exact hrefl _
      | ok body =>
        simp only [Task.bind_eq, fate_settle]
        exact hg v _

/-- Two applications whose handlers come to the same endings bring every request to the same ending. -/
theorem dispatch_congr {app₁ app₂ : App σ} {table : Route.Table β} {g₁ g₂ : β → Handler σ}
    (h₁ : app₁.routes = table.map g₁) (h₂ : app₂.routes = table.map g₂)
    (hg : ∀ v ctx₁ ctx₂ req w₁ w₂, ((g₁ v ctx₁ req).run w₁).1.map Ending.ofResult =
      ((g₂ v ctx₂ req).run w₂).1.map Ending.ofResult)
    (r : Incoming) (ctx₁ ctx₂ : Context) (w₁ w₂ : World σ) :
    ((app₁.dispatch ctx₁ r).run w₁).1 = ((app₂.dispatch ctx₂ r).run w₂).1 :=
  dispatch_related (fun _ => rfl) h₁ h₂ (fun v req => hg v ctx₁ ctx₂ req w₁ w₂) r

/-- Two calls have the same answer, but for the traces of their requests; or the same panic leaves both. -/
def Call.Same (c₁ c₂ : Call) : Prop :=
  match c₁.outcome, c₂.outcome with
  | .answered a, .answered b => a.status = b.status ∧ a.body = b.body ∧
      ∃ headers, a.headers = headers ++ [(traceHeader, c₁.context.trace.render)] ∧
        b.headers = headers ++ [(traceHeader, c₂.context.trace.render)]
  | .panicked p, .panicked q => p = q
  | .abandoned, .abandoned => True
  | _, _ => False

/-- Two applications answer a request alike, each in some state, and both signal the server to stop or neither
does. -/
def Alike (app₁ app₂ : App σ) (r : Incoming) (s₁ s₂ : State σ) (t₁ t₂ : Time) : Prop :=
  (app₁.call r s₁ t₁).1.Same (app₂.call r s₂ t₂).1 ∧ ∃ signals : Bool,
    (app₁.call r s₁ t₁).2.channel = (if signals then (s₁.channel.signal .terminate).2 else s₁.channel) ∧
    (app₂.call r s₂ t₂).2.channel = (if signals then (s₂.channel.signal .terminate).2 else s₂.channel)

/-- What of an ending is seen from outside: its response and whether it signals. -/
def Ending.shown (ending : Ending) : Response × Bool := (ending.response, ending.signals)

/-- Whether work that came to this end signals the server to stop. -/
def signals : Task.Fate Ending → Bool
  | .returned ending => ending.signals
  | _ => false

theorem State.close_channel (ctx : Context) (fate : Task.Fate Ending) (w : World σ) (s : State σ) :
    (s.close ctx fate w).2.channel =
      if signals fate then (s.channel.signal .terminate).2 else s.channel := by
  cases fate with
  | returned ending => exact State.conclude_channel ctx ending { s with shared := w.shared }
  | panicked p => rfl
  | suspended => rfl

section
variable {fate₁ fate₂ : Task.Fate Ending} (h : fate₁.map Ending.shown = fate₂.map Ending.shown)
include h

theorem signals_congr : signals fate₁ = signals fate₂ := by
  cases fate₁ <;> cases fate₂ <;> simp_all [Task.Fate.map, Ending.shown, signals]

theorem State.close_same (ctx₁ ctx₂ : Context) (w₁ w₂ : World σ) (s₁ s₂ : State σ) :
    (s₁.close ctx₁ fate₁ w₁).1.Same (s₂.close ctx₂ fate₂ w₂).1 := by
  cases fate₁ <;> cases fate₂ <;> simp only [Task.Fate.map, reduceCtorEq] at h
  case returned.returned ending₁ ending₂ =>
    have response : ending₁.response = ending₂.response := by
      simp only [Ending.shown, Task.Fate.returned.injEq, Prod.mk.injEq] at h
      exact h.1
    simp only [State.close, Call.Same, State.conclude_wire, toWire_push_trace, response]
    exact ⟨trivial, trivial, _, rfl, rfl⟩
  case panicked.panicked p q =>
    exact Task.Fate.panicked.inj h
  case suspended.suspended => trivial

end

/-- Two applications that bring a request to the same ending, as far as that is seen, answer it alike and signal
alike. -/
theorem call_alike_of_shown {app₁ app₂ : App σ} {r : Incoming} {s₁ s₂ : State σ} {t₁ t₂ : Time}
    (h : ((app₁.dispatch ⟨Context.traceOf s₁.contexts, t₁⟩ r).run { shared := s₁.shared }).1.map Ending.shown =
      ((app₂.dispatch ⟨Context.traceOf s₂.contexts, t₂⟩ r).run { shared := s₂.shared }).1.map Ending.shown) :
    Alike app₁ app₂ r s₁ s₂ t₁ t₂ := by
  unfold Alike
  rw [call_eq, call_eq]
  refine ⟨State.close_same h _ _ _ _ _ _, _, State.close_channel _ _ _ _, ?_⟩
  rw [State.close_channel, signals_congr h]

/-- Two applications that bring a request to the same ending answer it alike and signal alike. -/
theorem call_alike {app₁ app₂ : App σ} {r : Incoming}
    (h : ∀ ctx₁ ctx₂ w₁ w₂, ((app₁.dispatch ctx₁ r).run w₁).1 = ((app₂.dispatch ctx₂ r).run w₂).1)
    (s₁ s₂ : State σ) (t₁ t₂ : Time) : Alike app₁ app₂ r s₁ s₂ t₁ t₂ :=
  call_alike_of_shown (congrArg _ (h _ _ _ _))

/-- A failure that no layer has rendered ends a request as it would within the layer that renders errors. -/
theorem unrendered_ending (ctx : Context) (req : Request) (e : Failure) (w w' : World σ) :
    ((settle ctx (.error e)).run w).1 =
      (((Layers.errors (fun _ _ => .done (.error e)) ctx req).bind (settle ctx)).run w').1 := by
  have h := congrArg Prod.fst (run_settle (σ := σ) ctx (.error e) w)
  rw [h, Task.run_bind, run_errors]
  simp only [Task.run, Failure.rendered]
  cases hs : e.isShutdown <;> simp [run_settle, Ending.ofResult, hs]

/-- Two services with the same endpoints, whose outcomes are functions of the request, answer every request
alike and signal alike, in whatever states they are, if for every endpoint the stack of layers catches panics
in both or in neither. In particular nothing tells a failure that no layer has rendered from one that the
layer for errors has. -/
theorem same_answer (wrap₁ wrap₂ : List Builtin) (routes : List (Endpoint σ × List Builtin × List Builtin))
    (hpanics : ∀ e ∈ routes, .panics ∈ wrap₁ ++ e.2.1 ↔ .panics ∈ wrap₂ ++ e.2.2)
    (houtcome : ∀ e ∈ routes, ∃ f, e.1.handler.Settled f)
    (r : Incoming) (s₁ s₂ : State σ) (t₁ t₂ : Time) :
    Alike (ofBuiltins wrap₁ (routes.map fun e => (e.1, e.2.1)))
      (ofBuiltins wrap₂ (routes.map fun e => (e.1, e.2.2))) r s₁ s₂ t₁ t₂ ∧
    ∀ (ctx : Context) (req : Request) (e : Failure) (w w' : World σ),
      ((settle ctx (.error e)).run w).1 =
        (((Layers.errors (fun _ _ => .done (.error e)) ctx req).bind (settle ctx)).run w').1 := by
  -- what the endpoints promise travels with them through the table
  obtain ⟨routes, rfl⟩ : ∃ good : List { e : Endpoint σ × List Builtin × List Builtin //
      (.panics ∈ wrap₁ ++ e.2.1 ↔ .panics ∈ wrap₂ ++ e.2.2) ∧ ∃ f, e.1.handler.Settled f },
      good.map Subtype.val = routes :=
    ⟨routes.attachWith _ fun e he => ⟨hpanics e he, houtcome e he⟩, List.attachWith_map_subtype_val _⟩
  refine ⟨call_alike ?_ s₁ s₂ t₁ t₂, unrendered_ending⟩
  intro ctx₁ ctx₂ w₁ w₂
  simp only [List.map_map, Function.comp_def]
  have h₁ := ofBuiltins_routes wrap₁ (fun e => e.val.1) (fun e => e.val.2.1) routes
  have h₂ := ofBuiltins_routes wrap₂ (fun e => e.val.1) (fun e => e.val.2.2) routes
  refine dispatch_congr h₁ h₂ ?_ r ctx₁ ctx₂ w₁ w₂
  intro hex ctx₁ ctx₂ req w₁ w₂
  obtain ⟨⟨e, extra₁, extra₂⟩, hiff, f, hf⟩ := hex
  have h₁ := settled_within hf (wrap₁ ++ extra₁) ctx₁ req w₁
  have h₂ := settled_within hf (wrap₂ ++ extra₂) ctx₂ req w₂
  simp only [Endpoint.within, h₁, h₂, ending_foldr, hiff]

def failingRoutes : List (Endpoint Unit × List Builtin × List Builtin) :=
  [(⟨.get, "v1", "fails", fun _ _ => .done (.error (.badRequest "no"))⟩, [], [.panics]),
   (⟨.get, "v1", "panics", fun _ _ => .panicked .other⟩, [], [.metrics, .panics])]

def panickingRequest : Incoming := { target := { origin := "", path := "/v1/panics", query := none } }

/-- The usual layers around the failing routes answer like those layers that the routes have of their own. -/
theorem same_answer_failingRoutes :
    ((∀ e ∈ failingRoutes,
        .panics ∈ [Builtin.logger, .errors, .metrics, .panics] ++ e.2.1 ↔ .panics ∈ [] ++ e.2.2) ∧
      ∀ e ∈ failingRoutes, ∃ f, e.1.handler.Settled f) ∧
    Alike (ofBuiltins [.logger, .errors, .metrics, .panics] (failingRoutes.map fun e => (e.1, e.2.1)))
      (ofBuiltins [] (failingRoutes.map fun e => (e.1, e.2.2))) panickingRequest
      { shared := { service := () } } { shared := { service := () } } .epoch .epoch := by
  have panics : ∀ e ∈ failingRoutes,
      .panics ∈ [Builtin.logger, .errors, .metrics, .panics] ++ e.2.1 ↔ .panics ∈ [] ++ e.2.2 := by
    simp [failingRoutes]
  have outcome : ∀ e ∈ failingRoutes, ∃ f, e.1.handler.Settled f := by
    simp only [failingRoutes, List.forall_mem_cons]
    refine ⟨⟨fun _ => .returned (.error (.badRequest "no")), ?_⟩, ⟨fun _ => .panicked .other, ?_⟩, by simp⟩
    · intro ctx req w
      rfl
    · intro ctx req w
      rfl
  exact ⟨⟨panics, outcome⟩, (same_answer _ _ failingRoutes panics outcome panickingRequest
    { shared := { service := () } } { shared := { service := () } } .epoch .epoch).1⟩

end App

end JsonService
