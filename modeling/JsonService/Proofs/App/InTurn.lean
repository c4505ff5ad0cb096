import JsonService.Proofs.App.OneShutdown
import JsonService.Proofs.App.Turns
import Mathlib.Data.List.Forall2

/-!
# Requests called in turn

`App.call` runs a request to its end. Requests that are called one after another are a run of the traffic in which no
two are under way at once, so what holds of all traffic holds of what they come to.

**Results.**
* `run_call`, `run_calls`: calls one after another are a run of the traffic, and its flights show them.
* `channel_calls`: between calls the channel is as it was at first, or one signal is queued for good.
* `calls_stop_once`: of requests called in turn, those whose handlers ask for a shutdown are all told that the service
  is unavailable, and there is one signal if there are any.
-/
namespace JsonService.App

variable {σ : Type}

/-- What requests come to that are called one after another, and the state after them. -/
def calls (app : App σ) (s : State σ) : List (Incoming × Time) → List Call × State σ
  | [] => ([], s)
  | (r, arrived) :: visits =>
    let (c, s) := app.call r s arrived
    let (cs, s) := app.calls s visits
    (c :: cs, s)

/-! ## Calls as runs -/

namespace Traffic

variable {app : App σ} {s s' : Traffic σ}

theorem incoming_step {a : Action} (h : step app s a = some s') :
    s.flights.map (·.incoming) <+: s'.flights.map (·.incoming) := by
  have kept : ∀ {i : Nat} {f g : Flight σ}, s.flights[i]? = some f → g.incoming = f.incoming →
      s.flights.map (·.incoming) <+: (s.flights.set i g).map (·.incoming) := by
    intro i f g hf same
    obtain ⟨hi, rfl⟩ := List.getElem?_eq_some_iff.mp hf
    have place : i < (s.flights.map (·.incoming)).length := by simpa using hi
    have stays : (s.flights.set i g).map (·.incoming) = s.flights.map (·.incoming) := by
      rw [List.map_set, same, ← List.getElem_map Flight.incoming (h := place), List.set_getElem_self]
    exact stays ▸ List.prefix_rfl
  cases step_turn h with
  | arrive => simp
  | channel => exact List.prefix_rfl
  | move hf => exact kept hf rfl
  | put _ hf stays => exact kept hf stays.incoming

theorem incoming_run {as : List Action} (h : run app s as = some s') :
    s.flights.map (·.incoming) <+: s'.flights.map (·.incoming) := by
  induction as generalizing s with
  | nil =>
    rw [run, Option.some.injEq] at h
    exact h ▸ List.prefix_rfl
  | cons a as ih =>
    rw [run, Option.bind_eq_some_iff] at h
    obtain ⟨s₁, h₁, h₂⟩ := h
    exact (incoming_step h₁).trans (ih h₂)

theorem run_call (app : App σ) (r : Incoming) (arrived : Time) (s : Traffic σ)
    (sender : s.session.channel.hasSender 0 = true) : ∃ as s' f, run app s as = some s' ∧
      s'.flights = s.flights ++ [f] ∧ f.incoming = r ∧ f.Shows (app.call r s.state arrived).1 ∧
      s'.state = (app.call r s.state arrived).2 := by
  obtain ⟨n, last, s', f, -, ran, flights, state, shows⟩ := alone app r arrived s sender
  refine ⟨_, s', f, ran, flights, ?_, shows, state⟩
  -- the flight that has arrived is the last one still
  rw [run, Option.bind_eq_some_iff] at ran
  obtain ⟨s₁, arrives, goes⟩ := ran
  simp only [step, Option.some.injEq] at arrives
  have about := (incoming_run goes).eq_of_length (by rw [← arrives, flights]; simp)
  rw [← arrives, flights, List.map_append, List.map_append] at about
  simpa using (List.append_cancel_left about).symm

end Traffic

theorem senders_signal (c : Channel) (sig : Signal) : (c.signal sig).2.senders = c.senders := by
  cases hf : c.fired <;> simp [Channel.signal, Channel.swap, hf, Channel.senders_trySend]

/-- A call leaves the channel as it was, or signals that the process is to end. -/
theorem call_channel (app : App σ) (r : Incoming) (s : State σ) (arrived : Time) :
    (app.call r s arrived).2.channel = s.channel ∨
      (app.call r s arrived).2.channel = (s.channel.signal .terminate).2 := by
  rw [call_eq]
  generalize (app.dispatch _ r).run _ = ran
  obtain ⟨fate, w⟩ := ran
  cases fate with
  | returned ending =>
    simp only [State.close, State.conclude_channel]
    split
    · exact .inr rfl
    · exact .inl rfl
  | panicked | suspended => exact .inl rfl

/-- Calls one after another are a run of the traffic, in which each flight shows its call. -/
theorem Traffic.run_calls (app : App σ) (visits : List (Incoming × Time)) (s : Traffic σ)
    (sender : s.session.channel.hasSender 0 = true) : ∃ as s' flights, run app s as = some s' ∧
      s'.flights = s.flights ++ flights ∧ flights.map (·.incoming) = visits.map Prod.fst ∧
      List.Forall₂ Flight.Shows flights (app.calls s.state visits).1 ∧ s'.state = (app.calls s.state visits).2 := by
  induction visits generalizing s with
  | nil => exact ⟨[], s, [], rfl, by simp, rfl, .nil, rfl⟩
  | cons v visits ih =>
    obtain ⟨r, arrived⟩ := v
    obtain ⟨as, s₁, f, ran, one, about, shows, state⟩ := run_call app r arrived s sender
    have channel : s₁.session.channel = (app.call r s.state arrived).2.channel := congrArg State.channel state
    have sender₁ : s₁.session.channel.hasSender 0 = true := by
      rw [channel]
      rcases call_channel app r s.state arrived with same | signalled
      · rw [same]
        exact sender
      · rw [signalled, Channel.hasSender, senders_signal]
        exact sender
    obtain ⟨as', s', flights, ran', more, abouts, show_, state'⟩ := ih s₁ sender₁
    rw [state] at show_ state'
    refine ⟨as ++ as', s', f :: flights, ?_, ?_, ?_, .cons shows show_, state'⟩
    · rw [run_append, ran]
      exact ran'
    · rw [more, one, List.append_assoc, List.singleton_append]
    · rw [List.map_cons, about, abouts, List.map_cons]

/-! ## One shutdown -/

/-- The channel once it has been signalled that the process is to end, and nobody has looked. -/
def terminated : Channel := { fired := true, queued := some .terminate }

/-- Between calls the channel is as it was at first, or one signal is queued for good. -/
theorem channel_calls (app : App σ) (visits : List (Incoming × Time)) {s : State σ}
    (h : s.channel = {} ∨ s.channel = terminated) :
    (app.calls s visits).2.channel = {} ∨ (app.calls s visits).2.channel = terminated := by
  induction visits generalizing s with
  | nil => exact h
  | cons v visits ih =>
    refine ih (s := (app.call v.1 s v.2).2) ?_
    have first : (({} : Channel).signal .terminate).2 = terminated := rfl
    have again : (terminated.signal .terminate).2 = terminated := rfl
    rcases call_channel app v.1 s v.2 with same | signalled
    · exact same ▸ h
    · rw [signalled]
      rcases h with h | h
      · exact .inr (h ▸ first)
      · exact .inr (h ▸ again)

/-- **One shutdown for all calls.** Requests are called one after another, and nobody looks at the channel. Each of them
whose handler asks for a shutdown is told that the service is unavailable. If there is one, the signal to end is queued,
once, and if there is none, nothing is. One event at most says that a signal was the first. -/
theorem calls_stop_once (wrap : List Builtin) (routes : List (Endpoint σ × List Builtin)) (service : σ)
    (visits : List (Incoming × Time)) {cs : List Call} {s : State σ}
    (h : (ofBuiltins wrap routes).calls { shared := { service } } visits = (cs, s)) : ∃ flights : List (Flight σ),
      flights.map (·.incoming) = visits.map Prod.fst ∧ List.Forall₂ Flight.Shows flights cs ∧
      (∀ f ∈ flights, ∀ e, f.Asks wrap routes e →
        f.stage = .ended (.answered (traced f.context unavailable).toWire)) ∧
      ((∃ f ∈ flights, ∃ e, f.Asks wrap routes e) → s.channel.queued = some .terminate) ∧
      ((∀ f ∈ flights, ∀ e, ¬f.Asks wrap routes e) → s.channel.queued = none) ∧
      (s.shared.log.filter isFirst).length ≤ 1 := by
  obtain ⟨as, t, flights, ran, all, about, shows, state⟩ :=
    Traffic.run_calls (ofBuiltins wrap routes) visits { shared := { service } } rfl
  rw [show ({ shared := { service } } : Traffic σ).state = { shared := { service } } from rfl, h] at shows state
  have channel := channel_calls (ofBuiltins wrap routes) visits (s := { shared := { service } }) (.inl rfl)
  rw [h] at channel
  have I := (Traffic.inv_run (Traffic.inv_init (ofBuiltins wrap routes) service) ran).1
  obtain rfl : t.flights = flights := all
  obtain rfl : t.state = s := state
  -- a flight that shows a call is over, so nothing is left to wait for
  have finished : ∀ f ∈ t.flights, ∃ c : Call, f.stage = .ended c.outcome := by
    intro f hf
    obtain ⟨i, hi, rfl⟩ := List.getElem_of_mem hf
    have same := shows.length_eq
    exact ⟨_, (shows.get (by simpa using hi) (by omega)).stage⟩
  refine ⟨t.flights, about, shows, ?_, ?_, ?_, Traffic.first_le_one I⟩
  · intro f hf e asks
    obtain ⟨c, stage⟩ := finished f hf
    rw [stage, (over_of_asks asks (I.sound f hf) stage).1]
  · rintro ⟨f, hf, e, asks⟩
    obtain ⟨c, stage⟩ := finished f hf
    obtain ⟨-, k, call, first, -, hk, returned, -⟩ := over_of_asks asks (I.sound f hf) stage
    have fired : t.state.channel.fired = true :=
      I.session.inv.latch.mpr ⟨call, List.mem_of_getElem? hk, Channel.hasSwapped_of_returned returned⟩
    rcases channel with unused | stopped
    · rw [unused] at fired
      cases fired
    · rw [stopped]
      rfl
  · intro nobody
    have fired : t.state.channel.fired = false := (Channel.untouched I.session.inv (unused_of_quiet I nobody)).1
    rcases channel with unused | stopped
    · rw [unused]
    · rw [stopped] at fired
      cases fired

end JsonService.App
