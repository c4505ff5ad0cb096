import JsonService.Proofs.App.Own
import JsonService.Proofs.App.Steady
import Mathlib.Data.List.Perm.Basic

/-!
# Requests do not influence each other

Requests side by side share the counters, the log, the state of the service and the channel to the server. In a steady
application none of these comes back to a request: it is answered as if it had come alone. And what it leaves there
does not depend on the order of turns: counters add up, the log gets each request's lines, and whoever closes the latch
first, one signal is sent.

**Hypotheses.** What a handler comes to is a function of the request (`Handler.Determined`), whatever it finds in what
is shared. For the counters and the statuses in the log also what it does to them is (`Handler.WhollyDetermined`), or
it could count or log what it has found there; a handler that leaves them to the layers does nothing to them. Whoever
runs the requests has not cancelled them and has not given them up, since a handler may see that.

**Results.**
* `ended_of_completed`, `completes`: a request comes to its own end, and it can from wherever it is.
* `signalled_of_completed`, `carried_of_completed`: what the server is told when all requests are completed.
* `channel_reordered`, `counters_reordered`: it is the same if they have come and taken turns otherwise.
* `requests_apart`: handlers within built-in layers have no influence on each other.
-/
namespace JsonService.App

variable {σ : Type}

namespace Traffic

/-- What has come from nothing, in some order of turns. -/
def Reached (app : App σ) (s : Traffic σ) : Prop :=
  ∃ (service : σ) (as : List Action), run app { shared := { service } } as = some s

/-- All requests are completed, and none of them was cancelled from outside. -/
def Completed (s : Traffic σ) : Prop := ∀ f ∈ s.flights, f.isCompleted = true ∧ f.cancelled = false

/-- The same requests, in whatever order they have come. -/
def SameRequests (s s' : Traffic σ) : Prop := (s.flights.map (·.incoming)).Perm (s'.flights.map (·.incoming))

/-- The `i`-th request is completed if it goes on while nothing else happens. -/
def Completes (app : App σ) (s : Traffic σ) (i : Nat) : Prop :=
  ∃ s' f, Along app i s s' ∧ s'.flights[i]? = some f ∧ f.isCompleted = true

section
variable {app : App σ} {s : Traffic σ} (reached : Reached app s)
include reached

theorem Reached.inv : Inv app s := by
  obtain ⟨service, as, ran⟩ := reached
  exact (inv_run (inv_init app service) ran).1

theorem Reached.kept : Kept app s := by
  obtain ⟨service, as, ran⟩ := reached
  exact kept_run (kept_init app service) ran

theorem Reached.tallied : Tallied app s.shared.counters s.flights := by
  obtain ⟨service, as, ran⟩ := reached
  exact tallied_run (inv_init app service) (fun _ => rfl) ran

end

end Traffic

/-! ## One request among others -/

/-- What the work on a request has logged about completed requests, and what the request has told since. -/
def Flight.completions (app : App σ) (f : Flight σ) : List (Option Log.Value) :=
  (f.logged app ++ f.told).filterMap Log.Event.completion?

section
variable {app : App σ} {calls : List Channel.SignalCall} {f : Flight σ}

theorem ended_of_completed {P : List (Effect σ) → RequestState → Except Panic Ending → Prop} (own : f.Own app)
    (sound : f.Sound app calls) (completed : f.isCompleted = true) (kept : f.cancelled = false)
    (h : (app.work f.context f.incoming).Always {} P) :
    ∃ rs x, P ((app.work f.context f.incoming).effects f.seen) rs x ∧ f.stage = .ended (.of f.context x) ∧
      f.call.isSome = signals (.of x) ∧ f.told.filterMap Log.Event.completion? = [] := by
  obtain ⟨u, x, seen, ended, stage, call, told⟩ := sound.completed completed
  exact ⟨_, x, h.ended (own.sees kept) seen ended, stage, call, completions_told told⟩

/-- No other request can keep a request from its end. -/
theorem completes {s : Traffic σ} {i : Nat} {P : List (Effect σ) → RequestState → Except Panic Ending → Prop}
    (I : Traffic.Inv app s) (own : f.Own app) (hf : s.flights[i]? = some f) (kept : f.cancelled = false)
    (there : f.stage ≠ .ended .abandoned) (h : (app.work f.context f.incoming).Always {} P) :
    Traffic.Completes app s i := by
  have answered : ∀ {s'}, Traffic.Along app i s s' → Traffic.Answers app s' i → Traffic.Completes app s i := by
    rintro s' along ⟨s'', g, wire, along', hg, stage⟩
    exact ⟨s'', g, along.trans along', hg, by simp [Flight.isCompleted, stage]⟩
  have sound := I.sound f (List.mem_of_getElem? hf)
  cases stage : f.stage with
  | working t =>
    obtain ⟨seen, state⟩ := own.working t stage
    have rest := h.after (own.sees kept) seen
    rw [← state] at rest
    obtain ⟨es, x, -, fate, -⟩ := Task.Always.run (w := s.world f) rest kept
    obtain ⟨g, ran, -, -, along⟩ := Traffic.halts app t s f hf stage
    have hg := Traffic.getElem?_set_flight (g := g) hf
    rw [fate] at ran
    cases x with
    | ok ending => exact answered along (Traffic.answers_done I.session hg ran)
    | error p =>
      have panicked : g.stage = .working (.panicked p) := ran
      let now := s.changed i g (t.run (s.world f)).2.shared s.session
      have ends : Traffic.step app now (.advance i) = some (now.set i (g.finish (.panicked p))) := by
        have hg : now.flights[i]? = some g := hg
        simp only [Traffic.step, hg, Traffic.advance, panicked, Traffic.work]
      exact ⟨_, _, along.trans (Traffic.along_step ends), Traffic.getElem?_set_flight hg, rfl⟩
  | signalling e =>
    simp only [Flight.Sound, stage] at sound
    obtain ⟨-, -, k, c, call, hc⟩ := sound
    exact answered (.refl s) (Traffic.answers_signalling hf stage call hc)
  | telling res events => exact answered (.refl s) (Traffic.answers_telling hf stage)
  | ended outcome =>
    refine ⟨s, f, .refl s, hf, ?_⟩
    cases outcome with
    | answered | panicked => simp [Flight.isCompleted, stage]
    | abandoned => exact absurd stage there

end

/-! ## When all requests are completed -/

theorem Flight.isOver_of_isCompleted {f : Flight σ} (completed : f.isCompleted = true) : f.isOver = true := by
  unfold Flight.isCompleted at completed
  unfold Flight.isOver
  split at completed <;> simp_all

namespace Traffic

section
variable {app : App σ} {s : Traffic σ} (I : Inv app s)
include I

theorem calls_eq_nil_iff : s.session.calls = [] ↔ (s.flights.any fun f => f.call.isSome) = false := by
  rw [List.any_eq_false]
  constructor
  · intro none f hf some
    obtain ⟨k, call⟩ := Option.isSome_iff_exists.mp some
    have := I.call_lt hf call
    rw [none] at this
    exact Nat.not_lt_zero _ this
  · intro none
    refine List.eq_nil_of_length_eq_zero (Nat.eq_zero_of_not_pos fun pos => ?_)
    obtain ⟨f, hf, call⟩ := I.called 0 pos
    exact none f hf (by rw [call]; rfl)

variable (completed : s.Completed)
include completed

theorem returned_of_completed : ∀ c ∈ s.session.calls, c.returned ≠ none :=
  all_returned I fun f hf _ _ => Flight.isOver_of_isCompleted (completed f hf).1

/-- The server is told to stop just if a request has asked for it. -/
theorem signalled_of_completed : s.session.channel.isSignalled = s.flights.any fun f => f.call.isSome := by
  cases some : s.flights.any fun f => f.call.isSome with
  | false => exact (Channel.untouched I.session.inv ((calls_eq_nil_iff I).mpr some)).1
  | true =>
    have calls : s.session.calls ≠ [] := fun none => by simp [(calls_eq_nil_iff I).mp none] at some
    obtain ⟨c, hc, sent, tried⟩ :=
      Channel.exists_tried I.session.inv I.session.winner calls (returned_of_completed I completed)
    exact I.session.inv.latch.mpr ⟨c, hc, by simp [Channel.SignalCall.hasSwapped, tried]⟩

/-- Then the receiver has one signal, or will find it. -/
theorem carried_of_completed (receiving : s.session.channel.receiving = true) :
    s.session.carried = if s.flights.any fun f => f.call.isSome then [.terminate] else [] := by
  cases some : s.flights.any fun f => f.call.isSome with
  | false => exact (Channel.untouched I.session.inv ((calls_eq_nil_iff I).mpr some)).2
  | true =>
    have calls : s.session.calls ≠ [] := fun none => by simp [(calls_eq_nil_iff I).mp none] at some
    obtain ⟨c, hc, -, carried⟩ := Channel.carried_of_receiving I.session.inv I.session.winner calls
      (returned_of_completed I completed) receiving
    rw [carried, I.session.terminate c hc]
    rfl

end

/-- Two outcomes of the same requests, in whatever orders. -/
structure Reordered (app : App σ) (s s' : Traffic σ) : Prop where
  reached : Reached app s
  reached' : Reached app s'
  completed : s.Completed
  completed' : s'.Completed
  same : s.SameRequests s'

end Traffic

/-! ## No influence -/

/-- Requests have no influence on each other's answers, and none by their order on what the server is told. -/
structure Apart (app : App σ) : Prop where
  /-- Each is answered as it would be alone, whatever it would find then, but for its trace. -/
  answered : ∀ s, Traffic.Reached app s → ∀ f ∈ s.flights, f.isCompleted = true → f.cancelled = false →
    ∃ c, f.Shows c ∧ ∀ alone arrived, c.Same (app.call f.incoming alone arrived).1
  /-- And it is answered if it gets its turns. -/
  completes : ∀ s, Traffic.Reached app s → ∀ (i : Nat) (f : Flight σ), s.flights[i]? = some f → f.cancelled = false →
    f.stage ≠ .ended .abandoned → Traffic.Completes app s i
  signalled : ∀ s s', Traffic.Reordered app s s' →
    s.session.channel.isSignalled = s'.session.channel.isSignalled
  /-- A receiver that is still there has got the same, or will. -/
  carried : ∀ s s', Traffic.Reordered app s s' → s.session.channel.receiving = true →
    s'.session.channel.receiving = true → s.session.carried = s'.session.carried
  /-- If it has got the same, the channel is the same. -/
  channel : ∀ s s', Traffic.Reordered app s s' → s.session.channel.receiving = true →
    s'.session.channel.receiving = true → s.session.received = s'.session.received →
    s.session.channel = s'.session.channel

/-- Nor have they on what is logged when another is completed, or by their order on the counters. -/
structure Tidy (app : App σ) : Prop where
  /-- The log has the lines of each request and no others. -/
  log : ∀ s, Traffic.Reached app s → s.shared.log.Perm (s.flights.flatMap fun f => f.logged app ++ f.told)
  /-- Of these, what is about completed requests is what it would be alone. -/
  logged : ∀ s, Traffic.Reached app s → ∀ f ∈ s.flights, f.isCompleted = true → f.cancelled = false →
    ∀ alone arrived, (app.call f.incoming alone arrived).2.shared.log.filterMap Log.Event.completion? =
      alone.shared.log.filterMap Log.Event.completion? ++ f.completions app
  counters : ∀ s s', Traffic.Reordered app s s' → s.shared.counters = s'.shared.counters

section
variable {app : App σ} {s s' : Traffic σ} {f : Flight σ} {y : Incoming → Except Panic Ending} (steady : app.Steady y)
include steady

theorem answered_of_steady (reached : Traffic.Reached app s) (hf : f ∈ s.flights) (completed : f.isCompleted = true)
    (kept : f.cancelled = false) : ∃ c, f.Shows c ∧ ∀ alone arrived, c.Same (app.call f.incoming alone arrived).1 := by
  obtain ⟨rs, x, rfl, stage, -⟩ := ended_of_completed (reached.kept.own f hf) (reached.inv.sound f hf) completed kept
    (steady f.incoming f.context)
  refine ⟨⟨_, f.context, f.state⟩, ⟨stage, rfl, rfl⟩, fun alone arrived => ?_⟩
  obtain ⟨es, rs, x, rfl, outcome, -⟩ := call_always alone arrived (steady f.incoming _)
  exact Call.same_of rfl outcome

/-- Whether anyone has asked for a shutdown is a matter of the requests. -/
theorem asked_of_steady (reached : Traffic.Reached app s) (completed : s.Completed) :
    (s.flights.any fun f => f.call.isSome) = (s.flights.map (·.incoming)).any fun r => signals (.of (y r)) := by
  rw [List.any_map, Bool.eq_iff_iff, List.any_eq_true, List.any_eq_true]
  refine exists_congr fun f => and_congr_right fun hf => ?_
  obtain ⟨done, kept⟩ := completed f hf
  obtain ⟨rs, x, rfl, -, call, -⟩ := ended_of_completed (reached.kept.own f hf) (reached.inv.sound f hf) done kept
    (steady f.incoming f.context)
  rw [call]
  rfl

variable (h : Traffic.Reordered app s s')
include h

theorem asked_reordered : (s.flights.any fun f => f.call.isSome) = s'.flights.any fun f => f.call.isSome := by
  rw [asked_of_steady steady h.reached h.completed, asked_of_steady steady h.reached' h.completed']
  exact h.same.any_eq

theorem signalled_reordered : s.session.channel.isSignalled = s'.session.channel.isSignalled := by
  rw [Traffic.signalled_of_completed h.reached.inv h.completed,
    Traffic.signalled_of_completed h.reached'.inv h.completed', asked_reordered steady h]

variable (receiving : s.session.channel.receiving = true) (receiving' : s'.session.channel.receiving = true)
include receiving receiving'

theorem carried_reordered : s.session.carried = s'.session.carried := by
  rw [Traffic.carried_of_completed h.reached.inv h.completed receiving,
    Traffic.carried_of_completed h.reached'.inv h.completed' receiving', asked_reordered steady h]

theorem channel_reordered (received : s.session.received = s'.session.received) :
    s.session.channel = s'.session.channel := by
  have queued : s.session.channel.queued.toList = s'.session.channel.queued.toList := by
    have carried := carried_reordered steady h receiving receiving'
    rw [Channel.Session.carried, Channel.Session.carried, received] at carried
    exact List.append_cancel_right carried
  have fired : s.session.channel.fired = s'.session.channel.fired := signalled_reordered steady h
  have senders := h.reached.inv.session.sender.trans h.reached'.inv.session.sender.symm
  rcases hc : s.session.channel with ⟨fired₁, queued₁, senders₁, receiving₁⟩
  rcases hc' : s'.session.channel with ⟨fired₂, queued₂, senders₂, receiving₂⟩
  simp only [hc, hc'] at fired queued senders receiving receiving'
  cases queued₁ <;> cases queued₂ <;> simp_all

end

theorem apart_of_steady {app : App σ} {y : Incoming → Except Panic Ending} (steady : app.Steady y) : Apart app where
  answered _ reached _ hf := answered_of_steady steady reached hf
  completes _ reached _ f hf kept there :=
    completes reached.inv (reached.kept.own f (List.mem_of_getElem? hf)) hf kept there (steady f.incoming f.context)
  signalled _ _ := signalled_reordered steady
  carried _ _ := carried_reordered steady
  channel _ _ := channel_reordered steady

section
variable {app : App σ} {s s' : Traffic σ} {f : Flight σ} {d : Incoming → Doings Ending} (steady : app.WhollySteady d)
include steady

theorem doings_of_completed (reached : Traffic.Reached app s) (hf : f ∈ s.flights) (completed : f.isCompleted = true)
    (kept : f.cancelled = false) :
    (∃ rs x, Doings.of ((app.work f.context f.incoming).effects f.seen) rs x = d f.incoming) ∧
      f.told.filterMap Log.Event.completion? = [] := by
  obtain ⟨rs, x, doings, -, -, told⟩ := ended_of_completed (reached.kept.own f hf) (reached.inv.sound f hf) completed
    kept (steady f.incoming f.context)
  exact ⟨⟨rs, x, doings⟩, told⟩

theorem logged_of_whollySteady (reached : Traffic.Reached app s) (hf : f ∈ s.flights)
    (completed : f.isCompleted = true) (kept : f.cancelled = false) (alone : State σ) (arrived : Time) :
    (app.call f.incoming alone arrived).2.shared.log.filterMap Log.Event.completion? =
      alone.shared.log.filterMap Log.Event.completion? ++ f.completions app := by
  obtain ⟨⟨rs, x, doings⟩, told⟩ := doings_of_completed steady reached hf completed kept
  obtain ⟨es, rs', x', doings', -, log⟩ := call_always alone arrived (steady f.incoming _)
  rw [log, Flight.completions, List.filterMap_append, told, List.append_nil]
  exact congrArg (_ ++ ·) (congrArg Doings.completions (doings'.trans doings.symm))

theorem counters_reordered (h : Traffic.Reordered app s s') : s.shared.counters = s'.shared.counters := by
  -- each counter is what the requests count, one by one
  have sum : ∀ {s name}, Traffic.Reached app s → s.Completed →
      s.shared.counters.get name = ((s.flights.map (·.incoming)).map fun r => (d r).counts name).sum := by
    intro s name reached completed
    rw [reached.tallied name, List.count_flatMap, List.map_map]
    refine congrArg List.sum (List.map_congr_left fun f hf => ?_)
    obtain ⟨⟨rs, x, doings⟩, -⟩ := doings_of_completed steady reached hf (completed f hf).1 (completed f hf).2
    rw [Function.comp_apply, Flight.counts, Task.counts_eq_effects]
    exact congrFun (congrArg Doings.counts doings) name
  refine h.reached.kept.counters.ext h.reached'.kept.counters fun name => ?_
  rw [sum h.reached h.completed, sum h.reached' h.completed']
  exact (h.same.map _).sum_nat

end

theorem tidy_of_whollySteady {app : App σ} {d : Incoming → Doings Ending} (steady : app.WhollySteady d) : Tidy app where
  log _ reached := reached.kept.log.trans (List.flatMap_append_perm _ _ _)
  logged _ reached _ hf := logged_of_whollySteady steady reached hf
  counters _ _ := counters_reordered steady

/-- **Requests do not influence each other.** In a service of built-in layers whose handlers' outcomes are functions of
the request, in whatever order requests take turns, each is answered as if it had come alone, and the server is told the
same. If the handlers' other doings are too, the statuses in the log and the counters are the same as well. -/
theorem requests_apart (wrap : List Builtin) (routes : List (Endpoint σ × List Builtin))
    (determined : ∀ r ∈ routes, ∃ f, r.1.handler.Determined f) :
    Apart (ofBuiltins wrap routes) ∧
      ((∀ r ∈ routes, ∃ f, r.1.handler.WhollyDetermined f) → Tidy (ofBuiltins wrap routes)) := by
  constructor
  · obtain ⟨y, steady⟩ : ∃ y, (ofBuiltins wrap routes).Steady y := steady_ofBuiltins determined
    exact apart_of_steady steady
  · intro wholly
    obtain ⟨d, steady⟩ : ∃ d, (ofBuiltins wrap routes).WhollySteady d := whollySteady_ofBuiltins wholly
    exact tidy_of_whollySteady steady

deriving instance DecidableEq for Body, Incoming

/-- A route whose handler counts and lets others go first, one whose handler changes the state of the service and
panics, and one whose handler asks for a shutdown. -/
def mixedRoutes : List (Endpoint Nat × List Builtin) :=
  [(⟨.get, "v1", "waits", fun _ _ => .step (.count "waits") fun _ => .pause (.done (.ok (.ofStatus .created)))⟩, []),
   (⟨.get, "v1", "fails", fun _ _ => .step (.update (· + 1)) fun _ => .panicked .other⟩, [.errors]),
   (⟨.get, "v1", "drains", fun _ _ => .pause (.done (.error (.shutdown "no more")))⟩, [])]

theorem mixedRoutes_determined : ∀ r ∈ mixedRoutes, ∃ f, r.1.handler.WhollyDetermined f := by
  have fails : Handler.Determined (σ := Nat) (fun _ _ => .step (.update (· + 1)) fun _ => .panicked .other)
      fun _ => .error .other := fun _ _ _ _ => rfl
  have drains : Handler.Determined (σ := Nat) (fun _ _ => .pause (.done (.error (.shutdown "no more"))))
      fun _ => .ok (.error (.shutdown "no more")) := fun _ _ => rfl
  simp only [mixedRoutes, List.forall_mem_cons]
  refine ⟨⟨fun _ => .of [.count "waits"] {} (.ok (.ok (.ofStatus .created))), fun _ _ _ _ => rfl⟩,
    ⟨_, fails.wholly fun _ _ => .step ⟨rfl, rfl, fun _ => rfl⟩ fun _ => .panicked⟩,
    ⟨_, drains.wholly fun _ _ => .pause .done⟩, by simp⟩

def mixedApp : App Nat := ofBuiltins [.logger, .metrics, .panics] mixedRoutes

def mixedRequest (path : String) : Incoming := { target := { origin := "", path, query := none } }

def oneByOne : List Traffic.Action :=
  ["/v1/waits", "/v1/fails", "/v1/drains"].zipIdx.flatMap fun (path, i) =>
    .arrive (mixedRequest path) .epoch :: List.replicate 13 (.advance i)

def inTurns : List Traffic.Action :=
  ["/v1/drains", "/v1/waits", "/v1/fails"].map (fun path => .arrive (mixedRequest path) .epoch) ++
    (List.replicate 13 [.advance 0, .advance 1, .advance 2]).flatten

/-- Both leave the channel and the counters alike. -/
theorem requests_apart_mixed : ∃ s s',
    Traffic.Reordered mixedApp s s' ∧
      s.session.carried = [.terminate] ∧ s.session.channel = s'.session.channel ∧
      ["errors", "panics", "requests", "waits"].map s.shared.counters.get = [2, 1, 3, 1] ∧
      s.shared.counters = s'.shared.counters ∧
      Apart mixedApp ∧ Tidy mixedApp := by
  let look (s : Traffic Nat) := (s.flights.map (·.incoming), s.flights.all (fun f => f.isCompleted && !f.cancelled),
    s.session.channel.receiving, s.session.received)
  have first : (Traffic.run mixedApp { shared := { service := 0 } } oneByOne).map (fun s =>
        (look s, s.session.carried, ["errors", "panics", "requests", "waits"].map s.shared.counters.get)) =
      some ((["/v1/waits", "/v1/fails", "/v1/drains"].map mixedRequest, true, true, []), [.terminate],
        [2, 1, 3, 1]) := by
    decide +kernel
  have second : (Traffic.run mixedApp { shared := { service := 0 } } inTurns).map look =
      some (["/v1/drains", "/v1/waits", "/v1/fails"].map mixedRequest, true, true, []) := by
    decide +kernel
  obtain ⟨s, ran, seen⟩ := Option.map_eq_some_iff.mp first
  obtain ⟨s', ran', seen'⟩ := Option.map_eq_some_iff.mp second
  simp only [look, Prod.mk.injEq] at seen seen'
  obtain ⟨⟨requests, finished, receiving, received⟩, carried, counters⟩ := seen
  obtain ⟨requests', finished', receiving', received'⟩ := seen'
  have completed : ∀ {s : Traffic Nat},
      s.flights.all (fun f => f.isCompleted && !f.cancelled) = true → s.Completed := by
    intro s all f hf
    simpa using List.all_eq_true.mp all f hf
  have same : s.SameRequests s' := by
    have paths : ["/v1/waits", "/v1/fails", "/v1/drains"].Perm ["/v1/drains", "/v1/waits", "/v1/fails"] := by decide
    rw [Traffic.SameRequests, requests, requests']
    exact paths.map mixedRequest
  have reordered : Traffic.Reordered mixedApp s s' :=
    ⟨⟨0, oneByOne, ran⟩, ⟨0, inTurns, ran'⟩, completed finished, completed finished', same⟩
  obtain ⟨apart, tidy⟩ := requests_apart [.logger, .metrics, .panics] mixedRoutes fun r hr =>
    have ⟨f, wholly⟩ := mixedRoutes_determined r hr
    ⟨_, wholly.determined⟩
  have tidy : Tidy mixedApp := tidy mixedRoutes_determined
  exact ⟨s, s', reordered, carried, apart.channel s s' reordered receiving receiving' (received.trans received'.symm),
    counters, tidy.counters s s' reordered, apart, tidy⟩

end JsonService.App
