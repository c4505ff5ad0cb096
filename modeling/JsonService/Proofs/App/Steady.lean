import JsonService.Proofs.App.Counting
import JsonService.Proofs.App.OneShutdown
import JsonService.Proofs.App.Unreached
import JsonService.Proofs.Layers.Always

/-!
# Requests whose outcome is their own

A handler whose outcome is a function of the request comes to it whatever other requests do meanwhile. Built-in layers
make something of the outcome that is again a function of the request, and so does what stands around them. So the work
on each request comes to an ending of its own, whatever its context and whenever it takes its turns.

**Steady.** In a steady application this holds of the work on every request: what it comes to is a function of the
request. In a wholly steady one so is all that is told of its doings: the status that it leaves, what it counts and what
it logs about requests that are completed.

**Results.**
* `Handler.Determined.wholly`: a handler that leaves the status, the counters and the lines about completed requests to
  the layers is wholly determined if its outcome is.
* `always_refused`, `always_accepted`: the work on a request, with a handler and without.
* `steady_ofBuiltins`, `whollySteady_ofBuiltins`: handlers within built-in layers make a steady application.
* `call_always`: what a call comes to.
-/
namespace JsonService

variable {σ α β : Type}

/-! ## Handlers -/

/-- What the handler comes to is a function of the request, whatever its context and whatever others do to what is
shared. It does not wait for them. -/
def Handler.Determined (h : Handler σ) (f : Request → Except Panic Result) : Prop :=
  ∀ ctx req, (h ctx req).Always {} fun _ _ x => x = f req

/-- And so are the status that it leaves, what it counts, and what it logs about requests that are completed. -/
def Handler.WhollyDetermined (h : Handler σ) (f : Request → Doings Result) : Prop :=
  ∀ ctx req, (h ctx req).Always {} fun es rs x => Doings.of es rs x = f req

theorem Handler.WhollyDetermined.determined {h : Handler σ} {f : Request → Doings Result}
    (wholly : h.WhollyDetermined f) : h.Determined fun req => (f req).result :=
  fun ctx req => (wholly ctx req).mono fun _ _ _ same => congrArg Doings.result same

/-- The effect does nothing that is told of. -/
structure Effect.Aside (e : Effect σ) : Prop where
  counted : e.counted? = none
  logged : e.logged.filterMap Log.Event.completion? = []
  status : ∀ rs, (e.on rs).status = rs.status

/-- The task records no status, counts nothing and logs nothing about requests that are completed. It may look at
everything, change the state of the service and log anything else. -/
inductive Task.Aside : Task σ α → Prop
  | done : Aside (.done a)
  | panicked : Aside (.panicked p)
  | step : effect.Aside → (∀ v, Aside (next v)) → Aside (.step effect next)
  | pause : Aside next → Aside (.pause next)
  | await : Aside next → Aside (.await ready next)

/-- All that is told of such a task is what it comes to. -/
theorem Task.Always.aside {t : Task σ α} {rs : RequestState}
    {P : List (Effect σ) → RequestState → Except Panic α → Prop} (h : t.Always rs P) (aside : t.Aside) :
    t.Always rs fun es rs' x => P es rs' x ∧
      Doings.of es rs' x = { result := x, status := rs.status, counts := fun _ => 0, completions := [] } := by
  induction aside generalizing rs P with
  | done | panicked => exact ⟨h, rfl⟩
  | step quiet _ ih =>
    intro v seen
    refine (ih v (h v seen)).mono fun es rs' x told => ⟨told.1, ?_⟩
    exact (Doings.of_quiet quiet.counted quiet.logged es rs' x).trans (quiet.status rs ▸ told.2)
  | pause _ ih => exact ih h
  | await _ ih => exact ⟨h.1, ih h.2⟩

theorem Handler.Determined.wholly {h : Handler σ} {f : Request → Except Panic Result} (determined : h.Determined f)
    (aside : ∀ ctx req, (h ctx req).Aside) : h.WhollyDetermined fun req =>
      { result := f req, status := none, counts := fun _ => 0, completions := [] } := by
  intro ctx req
  refine ((determined ctx req).aside (aside ctx req)).mono ?_
  rintro es rs x ⟨rfl, told⟩
  exact told

namespace App

/-- What the work on a request comes to is a function of the request. -/
def Steady (app : App σ) (y : Incoming → Except Panic Ending) : Prop :=
  ∀ r ctx, (app.work ctx r).Always {} fun _ _ x => x = y r

/-- And so is what is told of its doings. -/
def WhollySteady (app : App σ) (d : Incoming → Doings Ending) : Prop :=
  ∀ r ctx, (app.work ctx r).Always {} fun es rs x => Doings.of es rs x = d r

/-! ## From the handler to the ending -/

/-- The status in the cell once a result has become an ending. -/
def settledStatus : Result → Option Status → Option Status
  | .ok _, status => status
  | .error e, status => if e.isShutdown then status else some e.status

/-- What becomes of the doings of a handler within its layers. -/
def settled (d : Doings Result) : Doings Ending where
  result := d.result.map Ending.ofResult
  status := match d.result with
    | .ok result => settledStatus result d.status
    | .error _ => d.status
  counts := d.counts
  completions := d.completions

theorem always_settled {P : List (Effect σ) → RequestState → Except Panic Result → Prop} {t : Task σ Result}
    {rs : RequestState} (inner : t.Always rs P) (span : Log.Span) (ctx : Context) :
    ((t.within span).bind (settle ctx)).Always rs (Made P settled) := by
  refine (inner.within span).bind ?_ ?_
  · rintro _ rs r ⟨es, holds, rfl⟩
    cases r with
    | ok res =>
      refine ⟨es, rs, _, holds, ?_⟩
      rw [List.append_nil, Doings.of_inSpan]
      rfl
    | error e =>
      have ending : Ending.ofResult (.error e) = if e.isShutdown then .shutdown e else .respond e.response := rfl
      have left : settledStatus (.error e) rs.status = if e.isShutdown then rs.status else some e.status := rfl
      cases hs : e.isShutdown with
      | true =>
        simp only [settle, hs, if_true] at ending left ⊢
        refine ⟨es, rs, _, holds, ?_⟩
        rw [List.append_nil, Doings.of_inSpan]
        simp only [settled, Doings.of, Except.map, ending, left]
      | false =>
        simp only [settle, hs, Bool.false_eq_true, if_false] at ending left ⊢
        intro v _ v' _
        refine ⟨es, rs, _, holds, (Doings.of_append _ _ _ _).trans ?_⟩
        rw [Doings.of_same es]
        simp only [settled, Except.map, ending, left, counted_inSpan, completions_inSpan]
        rfl
  · rintro _ rs p ⟨es, holds, rfl⟩
    refine ⟨es, rs, _, holds, ?_⟩
    rw [Doings.of_inSpan]
    rfl

/-! ## The work on a request -/

section
variable {app : App σ} {r : Incoming}

/-- What is told of a request that is turned away. -/
def refusedDoings (status : Status) (message : String) : Doings Ending where
  result := .ok (.respond ((({} : Response.Builder).withStatus status).json
    (Text.Utf8.bytes ({ error := message } : ErrorBody).toJson.render)))
  status := some status
  counts := fun _ => 0
  completions := []

theorem always_turnAway (status : Status) (message : String) {events : List Log.Event}
    (other : ∀ e ∈ events, e.completion? = none) (rs : RequestState) :
    (turnAway (σ := σ) status message events).Always rs fun es rs x =>
      Doings.of es rs x = refusedDoings status message := by
  induction events generalizing rs with
  | nil => exact fun _ _ => rfl
  | cons event events ih =>
    obtain ⟨first, rest⟩ := List.forall_mem_cons.mp other
    intro v _
    refine (ih rest rs).mono fun es rs x told => ?_
    have quiet : (Effect.log event : Effect σ).logged.filterMap Log.Event.completion? = [] := by
      simp [Effect.logged, first]
    exact (Doings.of_quiet rfl quiet es rs x).trans told

theorem completion_unreadable (reason : String) (ctx : Context) : (unreadable reason ctx).completion? = none := by
  have differs : s!"reading request body: {reason}" ≠ "request completed" := unreadable_ne reason (by decide)
  exact Log.Event.completion?_eq_none differs

theorem always_refused {status : Status} {message : String} {logged : Context → List Log.Event}
    (refused : Refused app.routes r status message logged) (ctx : Context) :
    (app.work ctx r).Always {} fun es rs x => Doings.of es rs x = refusedDoings status message := by
  show (app.dispatch ctx r).Always {} _
  rw [dispatch_refused refused]
  refine always_turnAway status message (fun e he => ?_) {}
  cases refused with
  | method | otherMethod | route => cases he
  | body known route failure =>
    rw [List.mem_singleton.mp he]
    exact completion_unreadable _ ctx

variable {wrap : List Builtin} {routes : List (Endpoint σ × List Builtin)}

theorem always_accepted {e : Endpoint σ × List Builtin} {req : Request}
    (accepted : Accepted (endpointTable Prod.fst {} routes) r e req) (ctx : Context)
    {P : List (Effect σ) → RequestState → Except Panic Result → Prop} (inner : (e.1.handler ctx req).Always {} P) :
    ((ofBuiltins wrap routes).work ctx r).Always {} (Made P fun d => settled (d.inside (wrap ++ e.2))) := by
  have served : Accepted (ofBuiltins wrap routes).routes r (e.1.within (wrap ++ e.2)) req := by
    rw [routes_eq]
    exact accepted.map fun e => e.1.within (wrap ++ e.2)
  show ((ofBuiltins wrap routes).dispatch ctx r).Always {} _
  rw [dispatch_served served]
  refine (always_settled (always_stack inner (wrap ++ e.2)) _ ctx).mono fun es rs x made => made.trans

/-- A request is turned away whatever its context, or goes to the handler of a route. -/
theorem refused_or_route (wrap : List Builtin) (routes : List (Endpoint σ × List Builtin)) (r : Incoming) :
    (∃ status message logged, Refused (ofBuiltins wrap routes).routes r status message logged) ∨
      ∃ e ∈ routes, ∃ req, Accepted (endpointTable Prod.fst {} routes) r e req := by
  rcases refused_or_accepted (endpointTable Prod.fst {} routes) r with ⟨status, message, logged, refused⟩ | served
  · refine .inl ⟨status, message, logged, ?_⟩
    rw [routes_eq]
    exact refused.map _
  · obtain ⟨e, req, accepted⟩ := served
    refine .inr ⟨e, ?_, req, accepted⟩
    obtain ⟨-, route, -⟩ := accepted
    exact mem_of_endpointTable route

theorem steady_ofBuiltins (determined : ∀ r ∈ routes, ∃ f, r.1.handler.Determined f) :
    ∃ y, (ofBuiltins wrap routes).Steady y := by
  have each : ∀ r, ∃ y, ∀ ctx, ((ofBuiltins wrap routes).work ctx r).Always {} fun _ _ x => x = y := by
    intro r
    rcases refused_or_route wrap routes r with ⟨status, message, logged, refused⟩ | ⟨e, he, req, accepted⟩
    · exact ⟨(refusedDoings status message).result, fun ctx =>
        (always_refused refused ctx).mono fun _ _ _ told => congrArg Doings.result told⟩
    · obtain ⟨f, hf⟩ := determined e he
      refine ⟨(onEnd (wrap ++ e.2) (f req)).map Ending.ofResult, fun ctx => ?_⟩
      refine (always_accepted accepted ctx (hf ctx req)).mono ?_
      rintro es rs x ⟨es', rs', y, rfl, told⟩
      have result := congrArg Doings.result told
      simpa only [Doings.of, settled, Doings.inside_result] using result
  obtain ⟨y, hy⟩ := Classical.skolem.mp each
  exact ⟨y, hy⟩

theorem whollySteady_ofBuiltins (wholly : ∀ r ∈ routes, ∃ f, r.1.handler.WhollyDetermined f) :
    ∃ d, (ofBuiltins wrap routes).WhollySteady d := by
  have each : ∀ r, ∃ d, ∀ ctx,
      ((ofBuiltins wrap routes).work ctx r).Always {} fun es rs x => Doings.of es rs x = d := by
    intro r
    rcases refused_or_route wrap routes r with ⟨status, message, logged, refused⟩ | ⟨e, he, req, accepted⟩
    · exact ⟨refusedDoings status message, always_refused refused⟩
    · obtain ⟨f, hf⟩ := wholly e he
      refine ⟨settled ((f req).inside (wrap ++ e.2)), fun ctx => ?_⟩
      refine (always_accepted accepted ctx (hf ctx req)).mono ?_
      rintro es rs x ⟨es', rs', y, same, told⟩
      rw [told, same]
  obtain ⟨d, hd⟩ := Classical.skolem.mp each
  exact ⟨d, hd⟩

end

/-! ## Calls -/

/-- What is told once the work on a request is over is nothing about completed requests. -/
theorem completions_told {events : List Log.Event} (told : ∀ e ∈ events, toldAfterwards e.message) :
    events.filterMap Log.Event.completion? = [] := by
  refine List.filterMap_eq_nil_iff.mpr fun e he => Log.Event.completion?_eq_none ?_
  rcases told e he with message | message <;> simp [message]

/-- Two calls whose work comes to the same are the same but for their traces. -/
theorem Call.same_of {c₁ c₂ : Call} {x : Except Panic Ending} (h₁ : c₁.outcome = .of c₁.context x)
    (h₂ : c₂.outcome = .of c₂.context x) : c₁.Same c₂ := by
  unfold Call.Same
  rw [h₁, h₂]
  cases x with
  | ok ending =>
    simp only [Outcome.of, traced, toWire_push_trace]
    exact ⟨trivial, trivial, _, rfl, rfl⟩
  | error p => rfl

theorem call_always {app : App σ} {r : Incoming}
    {P : List (Effect σ) → RequestState → Except Panic Ending → Prop} (s : State σ) (arrived : Time)
    (h : (app.work ⟨Context.traceOf s.contexts, arrived⟩ r).Always {} P) :
    ∃ es rs x, P es rs x ∧ (app.call r s arrived).1.outcome = .of (app.call r s arrived).1.context x ∧
      (app.call r s arrived).2.shared.log.filterMap Log.Event.completion? =
        s.shared.log.filterMap Log.Event.completion? ++ completions es := by
  have dispatch : (app.dispatch ⟨Context.traceOf s.contexts, arrived⟩ r).Always {} P := h
  obtain ⟨es, x, holds, fate, events⟩ := dispatch.run (w := { shared := s.shared }) rfl
  have log := Task.run_log (app.dispatch ⟨Context.traceOf s.contexts, arrived⟩ r) { shared := s.shared }
  rw [events] at log
  refine ⟨es, _, x, holds, ?_⟩
  rw [call_eq, fate]
  cases x with
  | ok ending =>
    simp only [Task.Fate.of, State.close]
    obtain ⟨last, ends, other⟩ := State.conclude_log ⟨Context.traceOf s.contexts, arrived⟩ ending
      { s with contexts := s.contexts + 1
               shared := ((app.dispatch ⟨Context.traceOf s.contexts, arrived⟩ r).run { shared := s.shared }).2.shared }
    have quiet := completions_told other
    refine ⟨by rw [State.conclude_wire]; rfl, ?_⟩
    rw [ends, log]
    simp only [List.filterMap_append, quiet, List.append_nil, completions]
  | error p =>
    refine ⟨rfl, ?_⟩
    simp only [Task.Fate.of, State.close]
    rw [log, List.filterMap_append]
    rfl

end App

end JsonService
