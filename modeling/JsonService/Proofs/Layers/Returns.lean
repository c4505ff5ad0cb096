import JsonService.Proofs.Layers.Outcome

/-!
# Handlers that return

The work of a handler returns if it neither panics nor waits for something, whatever the world is like in which it
begins but for the state of the service. Built-in layers around it count no panic then, leave the state of the service
to it, and what they make of its result ends the request in the same way.

**Results.**
* `returns_look`, `returns_update`, `returns_respond`: work that is made of steps that return.
* `returns_within`: within built-in layers work that returns does so too, with a result of the same ending.
* `Reaches.call_returns`: a request that reaches such a handler is answered with the response of its result.
* `call_lost`: one that finds no route is answered, too, and nothing but the log has changed.
-/
namespace JsonService

variable {σ α : Type}

/-- From a world in which the service is in state `c`, the work comes to a result and leaves a state as `R` says, and no
panic is counted. -/
def Task.Returns (t : Task σ Result) (c : σ) (R : Result → σ → Prop) : Prop :=
  ∀ w : World σ, w.shared.service = c → ∃ result w', t.run w = (.returned result, w') ∧
    R result w'.shared.service ∧ w'.shared.counters.get Counters.panics = w.shared.counters.get Counters.panics

/-- Another result of the same ending will do. -/
def Endwise (R : Result → σ → Prop) (result : Result) (c : σ) : Prop :=
  ∃ inner, R inner c ∧ App.Ending.ofResult result = App.Ending.ofResult inner

theorem endwise_self {R : Result → σ → Prop} {result : Result} {c : σ} (h : R result c) : Endwise R result c :=
  ⟨result, h, rfl⟩

theorem endwise_endwise {R : Result → σ → Prop} {result : Result} {c : σ} (h : Endwise (Endwise R) result c) :
    Endwise R result c := by
  obtain ⟨mid, ⟨inner, hR, first⟩, second⟩ := h
  exact ⟨inner, hR, second.trans first⟩

/-! ## Steps -/

section
variable {c : σ} {R R' : Result → σ → Prop} {t : Task σ Result}

theorem Task.Returns.mono (returns : t.Returns c R) (hR : ∀ result c', R result c' → R' result c') :
    t.Returns c R' := by
  intro w hw
  obtain ⟨result, w', run, holds, panics⟩ := returns w hw
  exact ⟨result, w', run, hR _ _ holds, panics⟩

theorem returns_done {result : Result} (h : R result c) : (Task.done result).Returns c R := by
  intro w hw
  exact ⟨result, w, rfl, hw ▸ h, rfl⟩

/-- Whatever else is seen, it is the state of the service. -/
theorem returns_look {f : View σ → Task σ Result} (h : ∀ v : View σ, v.service = c → (f v).Returns c R) :
    (Task.look.bind f).Returns c R := by
  intro w hw
  exact h w.view hw w hw

theorem returns_update {β : Type} {f : σ → β × σ} {k : β → Task σ Result} (h : (k (f c).1).Returns (f c).2 R) :
    ((Task.update f).bind k).Returns c R := by
  intro w hw
  subst hw
  exact h (w.after [.update fun s => (f s).2]) rfl

def responseOf (v : Json) (status : Status) : Response :=
  if status.isBodiless then .ofStatus status
  else (({} : Response.Builder).withStatus status).json (Text.Utf8.bytes v.render)

theorem responseOf_status (v : Json) (status : Status) : (responseOf v status).status = status := by
  unfold responseOf
  split <;> rfl

theorem responseOf_body {status : Status} (h : status.isBodiless = false) (v : Json) :
    (responseOf v status).body = Text.Utf8.bytes v.render := by
  rw [responseOf, h]
  rfl

theorem returns_respond {v : Json} {status : Status} (h : R (.ok (responseOf v status)) c) :
    (respond (.ok v) status).Returns c R := by
  intro w hw
  refine ⟨.ok (responseOf v status), w.after [.record status], ?_, hw ▸ h, rfl⟩
  simp only [respond, Task.record, Task.perform, Task.bind_eq, Task.bind, responseOf]
  cases status.isBodiless with
  | true => rfl
  | false => rfl

end

/-! ## Layers -/

section
variable {h : Handler σ} {ctx : Context} {req : Request} {c : σ} {R : Result → σ → Prop}

theorem returns_recorded (returns : (h ctx req).Returns c R) : (Handler.recorded h ctx req).Returns c R := by
  intro w hw
  obtain ⟨result, w', run, holds, panics⟩ := returns w hw
  rw [run_recorded, run]
  cases result with
  | ok res => exact ⟨_, _, rfl, holds, panics⟩
  | error e => exact ⟨_, _, rfl, holds, panics⟩

theorem ofResult_rendered (e : Failure) : App.Ending.ofResult e.rendered = App.Ending.ofResult (.error e) := by
  simp only [Failure.rendered, App.Ending.ofResult]
  cases hs : e.isShutdown <;> simp [hs]

theorem returns_layer (returns : (h ctx req).Returns c R) (b : Builtin) :
    (b.layer h ctx req).Returns c (Endwise R) := by
  intro w hw
  cases b with
  | logger =>
    obtain ⟨result, w', run, holds, panics⟩ := returns (w.after [.log (Layers.started ctx req)]) hw
    simp only [Builtin.layer, run_logger, run]
    exact ⟨_, _, rfl, endwise_self holds, panics⟩
  | errors =>
    obtain ⟨result, w', run, holds, panics⟩ := returns w hw
    simp only [Builtin.layer, run_errors, run]
    cases result with
    | ok res => exact ⟨_, _, rfl, endwise_self holds, panics⟩
    | error e => exact ⟨_, _, rfl, ⟨.error e, holds, ofResult_rendered e⟩, panics⟩
  | metrics =>
    obtain ⟨result, w', run, holds, panics⟩ := returns (w.after [.count Counters.requests]) hw
    have other : ∀ name : String, name ≠ Counters.panics → ∀ cs : Counters,
        (cs.increment name).get Counters.panics = cs.get Counters.panics := by
      intro name hne cs
      rw [Counters.get_increment, if_neg hne.symm, Nat.add_zero]
    have panics : w'.shared.counters.get Counters.panics = w.shared.counters.get Counters.panics :=
      panics.trans (other _ (by decide) _)
    simp only [Builtin.layer, run_metrics, run]
    cases result with
    | ok res => exact ⟨_, _, rfl, endwise_self holds, panics⟩
    | error e => exact ⟨_, _, rfl, endwise_self holds, (other _ (by decide) _).trans panics⟩
  | panics =>
    obtain ⟨result, w', run, holds, panics⟩ := returns w hw
    simp only [Builtin.layer, run_panics, run]
    exact ⟨_, _, rfl, endwise_self holds, panics⟩

/-- Within built-in layers work that returns does so too, with a result of the same ending. -/
theorem returns_within (returns : (h ctx req).Returns c R) (stack : List Builtin) :
    (h.within (stack.map Builtin.layer) ctx req).Returns c (Endwise R) := by
  induction stack with
  | nil => exact (returns_recorded returns).mono fun _ _ => endwise_self
  | cons b stack ih => exact returns_recorded ((returns_layer ih b).mono fun _ _ => endwise_endwise)

end

/-! ## Calls -/

namespace App

variable {app : App σ} {r : Incoming} {s : State σ} {t : Time}

/-- A call whose work comes to an ending is answered with its response. -/
theorem call_answered {ending : Ending}
    (fate : ((app.dispatch ⟨Context.traceOf s.contexts, t⟩ r).run { shared := s.shared }).1 = .returned ending) :
    ∃ wire, (app.call r s t).1.outcome = .answered wire ∧
      wire.status = ending.response.status ∧ wire.body = ending.response.body := by
  refine ⟨(ending.response.push traceHeader (Context.traceOf s.contexts).render).toWire, ?_, ?_, ?_⟩
  · rw [call_eq, fate, State.close]
    simp only [State.conclude_wire]
  · rw [toWire_push_trace]
  · rw [toWire_push_trace]

/-- A request that reaches a handler that returns is answered with the response of its result. -/
theorem Reaches.call_returns {h : Handler σ} {req : Request} (reaches : app.Reaches r h req)
    {R : Result → σ → Prop} (returns : (h ⟨Context.traceOf s.contexts, t⟩ req).Returns s.shared.service R) :
    ∃ wire result, (app.call r s t).1.outcome = .answered wire ∧ R result (app.call r s t).2.shared.service ∧
      wire.status = (Ending.ofResult result).response.status ∧ wire.body = (Ending.ofResult result).response.body ∧
      (app.call r s t).2.shared.counters.get Counters.panics = s.shared.counters.get Counters.panics := by
  obtain ⟨result, w, run, holds, panics⟩ := returns { shared := s.shared } rfl
  obtain ⟨log, shared⟩ := reaches.call_shared s t
  rw [run] at shared
  have fate : ((app.dispatch ⟨Context.traceOf s.contexts, t⟩ r).run { shared := s.shared }).1 =
      .returned (.ofResult result) := by
    rw [reaches.dispatch, fate_settle, run]
    rfl
  obtain ⟨wire, answered, status, body⟩ := call_answered fate
  refine ⟨wire, result, answered, ?_, status, body, ?_⟩
  · rw [shared]
    exact holds
  · rw [shared]
    exact panics

section
variable {β : Type} {table : Route.Table β} {g : β → Handler σ} (routes : app.routes = table.map g)
  (lost : ∀ v req, ¬Finds table r v req)
include routes lost

theorem run_lost (ctx : Context) (w : World σ) :
    ∃ res log, ((app.dispatch ctx r).run w).1 = .returned (.respond res) ∧
      res.status ∈ [Status.methodNotAllowed, .notFound, .badRequest] ∧
      ((app.dispatch ctx r).run w).2.shared = { w.shared with log } := by
  simp only [dispatch, routes, Route.Table.lookup_map]
  cases hm : Method.ofName? r.method with
  | none => exact ⟨_, w.shared.log, rfl, List.mem_cons_self, rfl⟩
  | some method =>
    simp only
    cases hroute : table.lookup method r.target.path with
    | methodNotAllowed => exact ⟨_, w.shared.log, rfl, List.mem_cons_self, rfl⟩
    | notFound => exact ⟨_, w.shared.log, rfl, List.mem_cons_of_mem _ List.mem_cons_self, rfl⟩
    | found v params =>
      simp only [Route.Lookup.map]
      cases hbody : r.body.collect with
      | error reason => exact ⟨_, _, rfl, List.mem_of_getLast? rfl, rfl⟩
      | ok body =>
        exact absurd ⟨hm, hroute, hbody, rfl, rfl, rfl⟩
          (lost v { method, target := r.target, headers := r.headers, body, params })

/-- A request that finds nothing in the table is answered, and nothing but the log has changed. -/
theorem call_lost : ∃ wire log, (app.call r s t).1.outcome = .answered wire ∧
    wire.status ∈ [Status.methodNotAllowed, .notFound, .badRequest] ∧
    (app.call r s t).2.shared = { s.shared with log } := by
  obtain ⟨res, log, fate, mem, shared⟩ :=
    run_lost routes lost ⟨Context.traceOf s.contexts, t⟩ { shared := s.shared }
  obtain ⟨wire, answered, status, -⟩ := call_answered fate
  obtain ⟨log', closed⟩ := State.close_shared ⟨Context.traceOf s.contexts, t⟩
    ({ s with contexts := s.contexts + 1 } : State σ) _ _
  refine ⟨wire, log', answered, status ▸ mem, ?_⟩
  rw [call_eq, closed, shared]

end

end App

end JsonService
