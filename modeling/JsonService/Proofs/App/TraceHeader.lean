import JsonService.Proofs.App.Unreached
import JsonService.Proofs.Responses

/-!
# The trace that a client reads

Every response goes out with the trace of its request under one name. A client that looks for a name finds every value
that the response has under it, whatever the case of its letters. The trace is the last of these, and the only one
unless the handler's own response has headers of that name: those are not replaced, so a client that takes the first
value reads what the handler supplied.

**Results.**
* `values_push_trace`: the trace is the last value under its name.
* `call_tells`: whatever a call logs tells of its own request.
* `trace_comes_last`: where a client reads the trace, and what else it reads there.
* `trace_after_another`: what a handler supplies under that name comes first.
-/
namespace JsonService

variable {σ : Type}

namespace App

/-! ## What a client reads -/

/-- The values of its own that a handler's result brings under the name of the trace. -/
def supplied : Result → List String
  | .ok res => res.offered traceHeader
  | .error _ => []

/-- The trace stands behind what the response has under its name. -/
theorem values_push_trace (res : Response) (u : Uuid) :
    (res.push traceHeader u.render).toWire.values traceHeader = res.offered traceHeader ++ [u.render] := by
  have proper : (Header.name? traceHeader).isSome := by decide +kernel
  have same : Header.sameName traceHeader traceHeader = true := decide_eq_true rfl
  rw [Response.values_toWire _ proper, Response.offered, Response.offered, Response.push, List.filter_append,
    List.map_append]
  simp [same, Uuid.isValue_render]

/-- What is made for a client out of a failure has the media type as its only header. -/
theorem offered_json (status : Status) (body : List UInt8) :
    ((({} : Response.Builder).withStatus status).json body).offered traceHeader = [] := by
  have other : Header.sameName "content-type" traceHeader = false := by decide +kernel
  simp [Response.offered, Response.Builder.json, Response.Builder.finish, Response.Builder.withStatus, other]

theorem offered_response (result : Result) :
    (Ending.ofResult result).response.offered traceHeader = supplied result := by
  cases result with
  | ok res => rfl
  | error e =>
    simp only [Ending.ofResult]
    cases e.isShutdown <;> exact offered_json _ _

/-! ## What the log tells -/

/-- An event tells of the request of this context: it has its trace, stands in its span, which has it too, or is about
a header that may not go out. A span of the handler's own stays. -/
inductive TellsOf (ctx : Context) : Log.Event → Prop
  | field : ctx.traceField ∈ event.fields → TellsOf ctx event
  | inSpan (event : Log.Event) (method : Method) (path : String) :
      ctx.traceField ∈ (span ctx method path).fields → TellsOf ctx (event.inSpan (span ctx method path))
  | dropped (name : String) : TellsOf ctx (State.droppedEvent name)

end App

namespace Task

variable {α : Type} {P : Log.Event → Prop}

/-- Everything that is logged in a span stands in it. -/
theorem logs_inSpan (span : Log.Span) (h : ∀ event : Log.Event, P (event.inSpan span)) (t : Task σ α) :
    (t.within span).Logs P := by
  induction t with
  | done => exact .done
  | panicked => exact .panicked
  | step effect next ih =>
    refine .step ?_ ih
    cases effect with
    | log event => exact List.forall_mem_singleton.mpr (h event)
    | _ => simp [Task.inSpan, Effect.logged]
  | pause next ih => exact .pause ih
  | await ready next ih => exact .await ih

theorem Logs.events {t : Task σ α} (h : t.Logs P) (w : World σ) : ∀ event ∈ t.events w, P event := by
  induction h generalizing w with
  | done | panicked => simp [Task.events]
  | step logged _ ih =>
    intro event he
    rcases List.mem_append.mp he with he | he
    · exact logged event he
    · exact ih _ _ event he
  | pause _ ih => exact ih w
  | await _ ih =>
    intro event he
    simp only [Task.events] at he
    split at he
    · exact ih w event he
    · cases he

end Task

namespace App

theorem logs_turnAway {ctx : Context} (status : Status) (message : String) {events : List Log.Event}
    (h : ∀ event ∈ events, TellsOf ctx event) : (turnAway (σ := σ) status message events).Logs (TellsOf ctx) := by
  induction events with
  | nil => exact .step (by simp [Effect.logged]) fun _ => .done
  | cons event events ih =>
    obtain ⟨first, rest⟩ := List.forall_mem_cons.mp h
    exact .step (by simpa [Effect.logged] using first) fun _ => ih rest

/-- Whatever the work on a request logs tells of that request, in whatever order requests take turns. -/
theorem logs_dispatch (app : App σ) (ctx : Context) (r : Incoming) : (app.dispatch ctx r).Logs (TellsOf ctx) := by
  rcases refused_or_accepted app.routes r with ⟨status, message, logged, refused⟩ | ⟨h, req, accepted⟩
  · rw [dispatch_refused refused]
    refine logs_turnAway _ _ ?_
    cases refused with
    | body => exact List.forall_mem_singleton.mpr (.field (by simp [unreadable]))
    | _ => simp
  · rw [dispatch_served accepted]
    refine Task.Logs.bind (fun result => ?_) (Task.logs_inSpan _ (fun event => .inSpan event _ _ (by simp [span])) _)
    cases result with
    | ok res => exact .done
    | error e =>
      simp only [settle]
      cases e.isShutdown with
      | true => exact .done
      | false =>
        refine .step (List.forall_mem_singleton.mpr (.field ?_)) fun _ => .step (by simp [Effect.logged]) fun _ => .done
        exact List.mem_cons_self

theorem conclude_tells (ctx : Context) (ending : Ending) (s : State σ) : ∃ last : List Log.Event,
    (s.conclude ctx ending).2.shared.log = s.shared.log ++ last ∧ ∀ event ∈ last, TellsOf ctx event := by
  have dropped : ∀ res : Response, ∀ event ∈ (res.push traceHeader ctx.trace.render).dropped.map State.droppedEvent,
      TellsOf ctx event := by
    intro res event he
    obtain ⟨name, -, rfl⟩ := List.mem_map.mp he
    exact .dropped name
  cases ending with
  | respond res => exact ⟨_, by simp only [State.conclude, State.finish_eq], dropped res⟩
  | shutdown e =>
    refine ⟨_, by simp only [State.conclude, State.requestShutdown, State.finish_eq, State.log, List.append_assoc]; rfl,
      fun event he => ?_⟩
    rcases List.mem_append.mp he with he | he
    · rw [List.mem_singleton.mp he]
      exact .field List.mem_cons_self
    · exact dropped _ event he

/-! ## Calls -/

section
variable (app : App σ) (r : Incoming) (s : State σ) (arrived : Time)

/-- A client that has this response reads the trace of its request, and so does whoever reads the log. -/
structure TraceTold (wire : Response.Wire) : Prop where
  context : (app.call r s arrived).1.context = (s.start arrived).1
  /-- The trace is the last value under its name. -/
  last : (wire.values traceHeader).getLast? = some (s.start arrived).1.trace.render
  /-- It is the only one if the request is turned away. -/
  refused : ∀ status message logged, Refused app.routes r status message logged →
    wire.values traceHeader = [(s.start arrived).1.trace.render]
  /-- If a handler answers, the values that it has supplied itself come first; if it fails there are none. -/
  handled : ∀ h req, Accepted app.routes r h req → ∃ result w,
    (h (s.start arrived).1 req).run { shared := s.shared } = (.returned result, w) ∧
      wire.values traceHeader = supplied result ++ [(s.start arrived).1.trace.render]
  logged : ∃ events, (app.call r s arrived).2.shared.log = s.shared.log ++ events ∧
    ∀ event ∈ events, TellsOf (s.start arrived).1 event

variable {app r s arrived} {wire : Response.Wire}

theorem ending_of_answered (answered : (app.call r s arrived).1.outcome = .answered wire) : ∃ ending w,
    (app.dispatch (s.start arrived).1 r).run { shared := s.shared } = (.returned ending, w) ∧
      wire = (ending.response.push traceHeader (s.start arrived).1.trace.render).toWire := by
  rw [call_eq] at answered
  simp only [State.start]
  generalize (app.dispatch ⟨Context.traceOf s.contexts, arrived⟩ r).run { shared := s.shared } = ran at answered
  obtain ⟨fate, w⟩ := ran
  cases fate with
  | returned ending =>
    simp only [State.close, Outcome.answered.injEq] at answered
    exact ⟨ending, w, rfl, by rw [← answered, State.conclude_wire]⟩
  | panicked p => cases answered
  | suspended => cases answered

/-- What a client reads of a handler's response or failure. -/
theorem handled_of_run {h : Handler σ} {req : Request} {ending : Ending} {w : World σ}
    (accepted : Accepted app.routes r h req)
    (run : (app.dispatch (s.start arrived).1 r).run { shared := s.shared } = (.returned ending, w)) : ∃ result w,
    (h (s.start arrived).1 req).run { shared := s.shared } = (.returned result, w) ∧
      (ending.response.push traceHeader (s.start arrived).1.trace.render).toWire.values traceHeader =
        supplied result ++ [(s.start arrived).1.trace.render] := by
  rw [dispatch_served accepted, Task.run_bind, Task.run_within] at run
  cases ran : (h (s.start arrived).1 req).run { shared := s.shared } with
  | mk fate w' =>
    rw [ran] at run
    cases fate with
    | returned result =>
      simp only [run_settle, Prod.mk.injEq, Task.Fate.returned.injEq] at run
      exact ⟨result, w', rfl, by rw [values_push_trace, ← run.1, offered_response]⟩
    | panicked p => cases run
    | suspended => cases run

/-- A request that is turned away is answered with nothing under the name but its trace. -/
theorem values_refusal (status : Status) (message : String) (ctx : Context) :
    (refusal status message ctx).values traceHeader = [ctx.trace.render] := by
  have other : Header.sameName "content-type" traceHeader = false := by decide +kernel
  have same : Header.sameName traceHeader traceHeader = true := decide_eq_true rfl
  simp [refusal, Response.Wire.values, other, same]

variable (app r s arrived) in
theorem call_context : (app.call r s arrived).1.context = (s.start arrived).1 := by
  rw [call_eq]
  generalize ((app.dispatch ⟨Context.traceOf s.contexts, arrived⟩ r).run { shared := s.shared }).1 = fate
  cases fate <;> rfl

variable (app r s arrived) in
theorem call_tells : ∃ events, (app.call r s arrived).2.shared.log = s.shared.log ++ events ∧
    ∀ event ∈ events, TellsOf (s.start arrived).1 event := by
  rw [call_eq]
  have worked := (logs_dispatch app (s.start arrived).1 r).events { shared := s.shared }
  have log := Task.run_log (app.dispatch (s.start arrived).1 r) { shared := s.shared }
  simp only [State.start] at worked log ⊢
  generalize (app.dispatch ⟨Context.traceOf s.contexts, arrived⟩ r).run { shared := s.shared } = ran at log ⊢
  obtain ⟨fate, w⟩ := ran
  cases fate with
  | returned ending =>
    obtain ⟨last, concluded, tells⟩ := conclude_tells ⟨Context.traceOf s.contexts, arrived⟩ ending
      ({ s with contexts := s.contexts + 1, shared := w.shared } : State σ)
    refine ⟨_ ++ last, ?_, List.forall_mem_append.mpr ⟨worked, tells⟩⟩
    rw [← List.append_assoc, ← log]
    exact concluded
  | panicked p => exact ⟨_, log, worked⟩
  | suspended => exact ⟨_, log, worked⟩

end

/-- Every response has the trace of its request as the last value under its name, and has no other value there but those
that the handler supplied. -/
theorem trace_comes_last (app : App σ) (r : Incoming) (s : State σ) (arrived : Time) (wire : Response.Wire)
    (answered : (app.call r s arrived).1.outcome = .answered wire) : TraceTold app r s arrived wire := by
  obtain ⟨ending, w, run, rfl⟩ := ending_of_answered answered
  refine ⟨call_context app r s arrived, ?_, ?_, fun h req accepted => handled_of_run accepted run,
    call_tells app r s arrived⟩
  · rw [values_push_trace, List.getLast?_append, List.getLast?_singleton]
    rfl
  · intro status message logged refused
    rw [call_refused refused] at answered
    rw [← Outcome.answered.inj answered, values_refusal]
    rfl

def forgingApp : App Unit :=
  (handle {} .get "v1" "forges" fun _ _ => .done (.ok { headers := [("X-Trace-Id", "forged")] })).2

def forges : Incoming where
  target := { origin := "", path := "/v1/forges", query := none }

def forged : Response.Wire where
  status := .ok
  headers := [("x-trace-id", "forged"), (traceHeader, (Context.traceOf 0).render)]
  body := []

theorem call_forges : (forgingApp.call forges { shared := { service := () } }).1.outcome = .answered forged := by
  have wire : (({ headers := [("X-Trace-Id", "forged")] } : Response).push traceHeader
      (Context.traceOf 0).render).toWire = forged := by decide +kernel
  rw [call_eq, dispatch_served (.mk (m := .get) rfl (by rw [forgingApp, handle_eq]; rfl) rfl)]
  exact congrArg Outcome.answered wire

/-- The trace of the request is the last value there too. -/
theorem trace_comes_last_forges :
    (forgingApp.call forges { shared := { service := () } }).1.outcome = .answered forged ∧
      TraceTold forgingApp forges { shared := { service := () } } .epoch forged :=
  ⟨call_forges, trace_comes_last _ _ _ _ _ call_forges⟩

/-- A client that takes the first value under the name reads what the handler supplied. -/
theorem trace_after_another : ∃ wire,
    (forgingApp.call forges { shared := { service := () } }).1.outcome = .answered wire ∧
      wire.values traceHeader = ["forged", (Context.traceOf 0).render] ∧
      (wire.values traceHeader).head? ≠
        some (forgingApp.call forges { shared := { service := () } }).1.context.trace.render := by
  refine ⟨forged, call_forges, by decide +kernel, ?_⟩
  rw [call_context]
  decide +kernel

end App

end JsonService
