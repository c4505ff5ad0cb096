import JsonService.Proofs.App.Concurrent

/-!
# A request that runs alone

While one flight takes steps and nothing else happens, it does what `App.call` does in one go: its work runs as
`Task.run` says, its call to signal goes as `Channel.signal` says, and it ends as `App.State.close` says.

**Results.**
* `halts`: the work of a flight gets as far as `Task.run` does.
* `along_signalling`, `along_tell`: what a flight does after its work.
* `closes`: how it ends.
* `alone`: a request that runs while no other does comes to what `App.call` comes to.
-/
namespace JsonService.App.Traffic

variable {σ : Type} {app : App σ} {i : Nat}

/-- The `i`-th flight goes from one state to another while nothing else happens. -/
def Along (app : App σ) (i : Nat) (s s' : Traffic σ) : Prop :=
  ∃ n, run app s (List.replicate n (.advance i)) = some s'

theorem Along.refl (s : Traffic σ) : Along app i s s := ⟨0, rfl⟩

theorem Along.trans {s s' s'' : Traffic σ} (h : Along app i s s') (h' : Along app i s' s'') : Along app i s s'' := by
  obtain ⟨m, ran⟩ := h
  obtain ⟨n, ran'⟩ := h'
  refine ⟨m + n, ?_⟩
  rw [← List.replicate_append_replicate, run_append, ran]
  exact ran'

theorem along_step {s s' : Traffic σ} (h : step app s (.advance i) = some s') : Along app i s s' :=
  ⟨1, by simp [run, h]⟩

/-! ## The work -/

/-- How the work of a flight stands once it has run. -/
def Ran (f : Flight σ) : Task.Fate Ending → Prop
  | .returned ending => f.stage = .working (.done ending)
  | .panicked p => f.stage = .working (.panicked p)
  | .suspended => ∃ t, f.stage = .working t ∧ t.yields = true

/-- The flight gets as far as a run of `t` on `w` does, by its own steps. -/
def Halts (app : App σ) (i : Nat) (s : Traffic σ) (f : Flight σ) (t : Task σ Ending) (w : World σ) : Prop :=
  ∃ g, Ran g (t.run w).1 ∧ g.state = (t.run w).2.request ∧ g.context = f.context ∧
    Along app i s (s.changed i g (t.run w).2.shared s.session)

section
variable {s : Traffic σ} {f : Flight σ} {t t' : Task σ Ending} {w : World σ}

theorem work_move (h : t.move (s.world f) = some (t', w)) : s.work i f t = some (s.changed i
    { f with state := w.request, seen := f.seen ++ [(s.world f).view], stage := .working t' } w.shared s.session) := by
  cases t with
  | done | panicked => cases h
  | step | pause | await => simp only [work, h, Option.map_some]; rfl

variable (hf : s.flights[i]? = some f)
include hf

theorem along_move (app : App σ) (working : f.stage = .working t) (h : t.move (s.world f) = some (t', w)) :
    ∃ g, g.stage = .working t' ∧ g.context = f.context ∧
      (s.changed i g w.shared s.session).world g = w ∧ Along app i s (s.changed i g w.shared s.session) := by
  refine ⟨{ f with state := w.request, seen := f.seen ++ [(s.world f).view], stage := .working t' }, rfl, rfl, ?_,
    along_step ?_⟩
  · have abandoned : w.abandoned = f.cancelled := Task.move_abandoned h
    simp only [world, changed, set, ← abandoned]
  · simp only [step, hf, advance, working]
    exact work_move h

theorem halts_of_move (working : f.stage = .working t) (h : t.move (s.world f) = some (t', w))
    (rest : ∀ s' f', s'.flights[i]? = some f' → f'.stage = .working t' → Halts app i s' f' t' (s'.world f')) :
    Halts app i s f t' w := by
  obtain ⟨f', stage, context, hw, along⟩ := along_move hf app working h
  have hf' : (s.changed i f' w.shared s.session).flights[i]? = some f' := getElem?_set_flight hf
  obtain ⟨g, ran, state, context', along'⟩ := rest _ f' hf' stage
  rw [hw] at ran state along'
  rw [changed_changed] at along'
  exact ⟨g, ran, state, context'.trans context, along.trans along'⟩

theorem halts_of_still (ran : Ran f (t.run (s.world f)).1) (world : (t.run (s.world f)).2 = s.world f) :
    Halts app i s f t (s.world f) := by
  refine ⟨f, ran, by rw [world]; rfl, rfl, ?_⟩
  rw [world]
  exact (changed_self hf).symm ▸ Along.refl s

end

/-- The work of a flight runs as `Task.run` says. -/
theorem halts (app : App σ) (t : Task σ Ending) (s : Traffic σ) (f : Flight σ) (hf : s.flights[i]? = some f)
    (working : f.stage = .working t) : Halts app i s f t (s.world f) := by
  induction t generalizing s f with
  | done ending => exact halts_of_still hf working rfl
  | panicked p => exact halts_of_still hf working rfl
  | step effect next ih =>
    have moves : (Task.step effect next).move (s.world f) =
        some (next (s.world f).view, effect.apply (s.world f)) := rfl
    show Halts app i s f (next (s.world f).view) (effect.apply (s.world f))
    exact halts_of_move hf working moves (ih _)
  | pause next ih =>
    have moves : next.pause.move (s.world f) = some (next, s.world f) := rfl
    show Halts app i s f next (s.world f)
    exact halts_of_move hf working moves ih
  | await ready next ih =>
    cases h : ready (s.world f).view with
    | true =>
      have moves : (Task.await ready next).move (s.world f) = some (next, s.world f) := by simp [Task.move, h]
      have runs : (Task.await ready next).run (s.world f) = next.run (s.world f) := by simp [Task.run, h]
      unfold Halts
      rw [runs]
      exact halts_of_move hf working moves ih
    | false =>
      have runs : (Task.await ready next).run (s.world f) = (.suspended, s.world f) := by simp [Task.run, h]
      exact halts_of_still hf (runs ▸ ⟨_, working, rfl⟩) (by rw [runs])

/-! ## The call to signal -/

section
variable {s : Traffic σ} {f : Flight σ} {e : Failure} {k : Nat} {c : Channel.SignalCall}
  (hf : s.flights[i]? = some f) (signalling : f.stage = .signalling e) (call : f.call = some k)
  (hc : s.session.calls[k]? = some c)
include hf signalling call hc

theorem step_channel (app : App σ) {session : Channel.Session} (pending : c.returned = none)
    (h : Channel.step s.session (if c.progress = .begun then .swap k else .trySend k) = some session) :
    step app s (.advance i) = some { s with session } := by
  simp only [step, hf, advance, signalling, signal, call, hc, pending, h, Option.map_some]

theorem step_returned (app : App σ) {first : Bool} (returned : c.returned = some first) :
    step app s (.advance i) = some (s.set i (f.tell unavailable [signalled f.context e first])) := by
  simp only [step, hf, advance, signalling, signal, call, hc, returned]

theorem along_won (app : App σ) (won : c.progress = .won) : ∃ session : Channel.Session,
    session.channel = (s.session.channel.trySend c.signal).2 ∧ Along app i s ({ s with session }.set i
      (f.tell unavailable [signalled f.context e (s.session.channel.trySend c.signal).1])) := by
  let tried := { c with progress := .tried (s.session.channel.trySend c.signal).1 }
  let session := { s.session with
    channel := (s.session.channel.trySend c.signal).2, calls := s.session.calls.set k tried }
  have sends : step app s (.advance i) = some { s with session } := by
    refine step_channel hf signalling call hc app (by simp [Channel.SignalCall.returned, won]) ?_
    simp only [won, reduceCtorEq, if_false, Channel.step, hc, if_true]
    rfl
  have htried : session.calls[k]? = some tried := List.getElem?_set_self (List.getElem?_eq_some_iff.mp hc).1
  have returns := step_returned (s := { s with session }) hf signalling call htried app
    (show tried.returned = some (s.session.channel.trySend c.signal).1 from rfl)
  exact ⟨session, rfl, (along_step sends).trans (along_step returns)⟩

theorem along_signalling (app : App σ) (begun : c.progress = .begun) : ∃ session : Channel.Session,
    session.channel = (s.session.channel.signal c.signal).2 ∧ Along app i s ({ s with session }.set i
      (f.tell unavailable [signalled f.context e (s.session.channel.signal c.signal).1])) := by
  have hk := (List.getElem?_eq_some_iff.mp hc).1
  let swapped := { c with progress := if s.session.channel.fired then .lost else .won }
  let session := { s.session with channel := s.session.channel.swap.2, calls := s.session.calls.set k swapped }
  have swaps : step app s (.advance i) = some { s with session } := by
    refine step_channel hf signalling call hc app (by simp [Channel.SignalCall.returned, begun]) ?_
    simp only [begun, if_true, Channel.step, hc]
    rfl
  have hswapped : session.calls[k]? = some swapped := List.getElem?_set_self hk
  cases fired : s.session.channel.fired with
  | true =>
    have returned : swapped.returned = some false := by simp only [Channel.SignalCall.returned, swapped, fired, if_true]
    have returns := step_returned (s := { s with session }) hf signalling call hswapped app returned
    refine ⟨session, ?_, (along_step swaps).trans ?_⟩
    · simp [Channel.signal, Channel.swap, fired, session]
    · simp only [Channel.signal, Channel.swap, fired, if_true]
      exact along_step returns
  | false =>
    have won : swapped.progress = .won := by simp [swapped, fired]
    obtain ⟨session', channel, along⟩ := along_won (s := { s with session }) hf signalling call hswapped app won
    have signal : s.session.channel.signal c.signal = s.session.channel.swap.2.trySend c.signal := by
      simp [Channel.signal, Channel.swap, fired]
    rw [signal]
    exact ⟨session', channel, (along_step swaps).trans along⟩

end

/-! ## The end -/

/-- The flight comes to this end by its own steps, or is given up after them. -/
def Closes (app : App σ) (i : Nat) (s : Traffic σ) (closed : Call × State σ) : Prop :=
  ∃ g s₁ s' last, g.Shows closed.1 ∧ s'.flights = s.flights.set i g ∧ s'.state = closed.2 ∧ Along app i s s₁ ∧
    (last = [] ∨ last = [.giveUp i]) ∧ run app s₁ last = some s'

section
variable {s : Traffic σ} {f : Flight σ}

theorem Closes.of_changed {g : Flight σ} {shared : Shared σ} {session : Channel.Session} {closed : Call × State σ}
    (along : Along app i s (s.changed i g shared session)) (h : Closes app i (s.changed i g shared session) closed) :
    Closes app i s closed := by
  obtain ⟨g', s₁, s', last, shows, flights, state, along', ends⟩ := h
  refine ⟨g', s₁, s', last, shows, ?_, state, along.trans along', ends⟩
  rw [flights]
  simp only [changed, set, List.set_set]

/-- How a call ends does not depend on whether its request was cancelled. -/
theorem close_world {w : World σ} (request : f.state = w.request) (shared : s.shared = w.shared) (ctx : Context)
    (fate : Task.Fate Ending) : s.state.close ctx fate (s.world f) = s.state.close ctx fate w := by
  cases fate <;> simp only [State.close, world, request, shared]

variable (hf : s.flights[i]? = some f)
include hf

/-- A flight tells what is left and is answered. -/
theorem along_tell (app : App σ) {res : Response} {events : List Log.Event} (telling : f.stage = .telling res events) :
    ∃ g : Flight σ, g.Shows ⟨.answered res.toWire, f.context, ⟨some res.status, true⟩⟩ ∧
      Along app i s (s.changed i g { s.shared with log := s.shared.log ++ events } s.session) := by
  induction events generalizing s f with
  | nil =>
    refine ⟨{ f with stage := .ended (.answered res.toWire), state := ⟨some res.status, true⟩ }, ⟨rfl, rfl, rfl⟩,
      along_step ?_⟩
    simp only [step, hf, advance, telling, tell, List.append_nil]
    rfl
  | cons e events ih =>
    let f' : Flight σ := { f with told := f.told ++ [e], stage := .telling res events }
    let shared : Shared σ := { s.shared with log := s.shared.log ++ [e] }
    have tells : Along app i s (s.changed i f' shared s.session) := by
      refine along_step ?_
      simp only [step, hf, advance, telling, tell]
      rfl
    have hf' : (s.changed i f' shared s.session).flights[i]? = some f' := getElem?_set_flight hf
    obtain ⟨g, shows, along⟩ := ih hf' rfl
    rw [changed_changed] at along
    have := tells.trans along
    simp only [changed, shared, set, List.append_assoc, List.cons_append, List.nil_append] at this
    exact ⟨g, shows, this⟩

theorem closes_telling (app : App σ) (res : Response) (events : List Log.Event)
    (telling : f.stage = .telling (traced f.context res) (events ++ droppedEvents f.context res)) {t : State σ}
    (ht : t = { s.state with shared.log := s.shared.log ++ events }) :
    Closes app i s (⟨.answered (t.finish f.context res).1, f.context, ⟨some res.status, true⟩⟩,
      (t.finish f.context res).2) := by
  obtain ⟨g, shows, along⟩ := along_tell hf app telling
  refine ⟨g, _, _, [], ?_, rfl, ?_, along, .inl rfl, rfl⟩
  · rw [State.finish_eq]
    exact shows
  · rw [State.finish_eq, ht]
    simp only [state, changed, set, droppedEvents, traced, List.append_assoc]

/-- A flight that is to signal ends as `State.requestShutdown` and `State.finish` say. -/
theorem closes_shutdown (app : App σ) (sender : s.session.channel.hasSender 0 = true) {e : Failure}
    (working : f.stage = .working (.done (.shutdown e))) :
    Closes app i s (s.state.close f.context (.returned (.shutdown e)) (s.world f)) := by
  let c : Channel.SignalCall := { sender := 0, signal := .terminate }
  let f' := { f with stage := .signalling e, call := some s.session.calls.length }
  let begun := s.changed i f' s.shared { s.session with calls := s.session.calls ++ [c] }
  have begins : step app s (.advance i) = some begun := by
    simp only [step, hf, advance, working, work, Channel.step, sender, if_true, Option.map_some]
    rfl
  have hf' : begun.flights[i]? = some f' := getElem?_set_flight hf
  have hc : begun.session.calls[s.session.calls.length]? = some c := List.getElem?_concat_length
  obtain ⟨session, channel, along⟩ := along_signalling hf' rfl rfl hc app rfl
  refine .of_changed (along_step begins) (.of_changed along ?_)
  let event := signalled f.context e (s.session.channel.signal .terminate).1
  let s' := { begun with session }.set i (f'.tell unavailable [event])
  have hs' : s'.flights[i]? = some (f'.tell unavailable [event]) := getElem?_set_flight hf'
  have requested : (s.state.requestShutdown f.context e).2 =
      { s'.state with shared.log := s'.shared.log ++ [event] } := by
    simp only [state, s', set, channel]
    rfl
  exact closes_telling hs' app unavailable [event] rfl requested

/-- However the work of a flight has ended, the flight ends as `State.close` says. -/
theorem closes (app : App σ) (sender : s.session.channel.hasSender 0 = true) {fate : Task.Fate Ending}
    (ran : Ran f fate) : Closes app i s (s.state.close f.context fate (s.world f)) := by
  cases fate with
  | returned ending =>
    have working : f.stage = .working (.done ending) := ran
    cases ending with
    | respond res =>
      have h : step app s (.advance i) = some (s.changed i (f.tell res []) s.shared s.session) := by
        simp only [step, hf, advance, working, work]
        rfl
      have hf' : (s.changed i (f.tell res []) s.shared s.session).flights[i]? = some _ := getElem?_set_flight hf
      refine .of_changed (along_step h) (closes_telling hf' app res [] rfl ?_)
      simp only [state, changed, set, List.append_nil]
      rfl
    | shutdown e => exact closes_shutdown hf app sender working
  | panicked p =>
    have working : f.stage = .working (.panicked p) := ran
    have h : step app s (.advance i) = some (s.set i (f.finish (.panicked p))) := by
      simp only [step, hf, advance, working, work]
    exact ⟨f.finish (.panicked p), _, s.set i _, [], ⟨rfl, rfl, rfl⟩, rfl, rfl, along_step h, .inl rfl, rfl⟩
  | suspended =>
    obtain ⟨t, working, yields⟩ := ran
    have h : step app s (.giveUp i) = some (s.set i (f.finish .abandoned)) := by
      simp only [step, hf, working, yields, if_true]
    exact ⟨f.finish .abandoned, s, s.set i _, [.giveUp i], ⟨rfl, rfl, rfl⟩, rfl, rfl, .refl s, .inr rfl,
      by simp only [run, h, Option.bind_some]⟩

end

/-- A request that runs while no other does comes to what `App.call` says. -/
theorem alone (app : App σ) (r : Incoming) (arrived : Time) (s : Traffic σ)
    (sender : s.session.channel.hasSender 0 = true) :
    ∃ (n : Nat) (last : List Action) (s' : Traffic σ) (f : Flight σ),
      (last = [] ∨ last = [.giveUp s.flights.length]) ∧
        run app s (.arrive r arrived :: (List.replicate n (.advance s.flights.length) ++ last)) = some s' ∧
          s'.flights = s.flights ++ [f] ∧ s'.state = (app.call r s.state arrived).2 ∧
            f.Shows (app.call r s.state arrived).1 := by
  let ctx : Context := ⟨Context.traceOf s.contexts, arrived⟩
  let f : Flight σ := { incoming := r, context := ctx, stage := .working (app.work ctx r) }
  let s₁ : Traffic σ := { s with contexts := s.contexts + 1, flights := s.flights ++ [f] }
  have arrives : step app s (.arrive r arrived) = some s₁ := rfl
  have hf : s₁.flights[s.flights.length]? = some f := List.getElem?_concat_length
  obtain ⟨g, ran, request, context, works⟩ := halts app (app.work ctx r) s₁ f hf rfl
  let w := ((app.work ctx r).run (s₁.world f)).2
  let s₂ := s₁.changed s.flights.length g w.shared s.session
  have hg : s₂.flights[s.flights.length]? = some g := getElem?_set_flight hf
  obtain ⟨g', s₃, s', last, shows, flights, state, along, hlast, ends⟩ := closes hg app sender ran
  rw [close_world (s := s₂) request rfl, context] at shows state
  obtain ⟨n, works⟩ := works.trans along
  refine ⟨n, last, s', g', hlast, ?_, ?_, ?_, ?_⟩
  · rw [run, arrives, Option.bind_some, run_append, works]
    exact ends
  · rw [flights]
    simp [s₂, s₁, changed, set]
  · rw [state, call_eq]
    rfl
  · rw [call_eq]
    exact shows

end JsonService.App.Traffic
