import JsonService.Proofs.App.Alone
import JsonService.Proofs.App.Flights

/-!
# One shutdown for all requests

Handlers within built-in layers, any number of requests side by side. Only a handler's failure that asks for it
stops the server, and however many handlers ask, the receiver gets one signal.

**Results.**
* `asks_heads`, `asks_of_shutdown`: the work on a request ends asking for a shutdown just if its handler did.
* `over_of_asks`: such a request is answered, whatever becomes of its signal.
* `first_le_one`: one event at most says that its signal was the first.
* `stops_once`: what the receiver gets, what the requests are answered with and what is logged.
-/
namespace JsonService

variable {σ : Type}

namespace App

/-! ## Which requests ask -/

section
variable (wrap : List Builtin) (routes : List (Endpoint σ × List Builtin))

/-- The handler that the request reaches has come to this. It has had the views of the request's work from where
the body was there and the layers around it had taken their first effects. -/
def Flight.HandlerCame (f : Flight σ) (x : Except Panic Result) : Prop :=
  ∃ e req, Finds (endpointTable Prod.fst {} routes) f.incoming e req ∧
    entering (wrap ++ e.2) + 1 ≤ f.seen.length ∧
    (e.1.handler f.context req).result? (f.seen.drop (entering (wrap ++ e.2) + 1)) = some x

/-- The handler has returned a failure that asks for a shutdown. -/
def Flight.Asks (f : Flight σ) (e : Failure) : Prop :=
  e.isShutdown = true ∧ f.HandlerCame wrap routes (.ok (.error e))

theorem routes_eq : (ofBuiltins wrap routes).routes =
    (endpointTable Prod.fst {} routes).map fun r => r.1.within (wrap ++ r.2) := by
  have h := ofBuiltins_routes wrap Prod.fst Prod.snd routes
  rwa [List.map_id'] at h

variable {wrap routes} {f : Flight σ} {e : Failure} {calls : List Channel.SignalCall}

/-- Once the handler has asked for a shutdown, the work heads for it. -/
theorem asks_heads (asks : f.Asks wrap routes e) {t : Task σ Ending}
    (seen : ((ofBuiltins wrap routes).work f.context f.incoming).after f.seen = some t) :
    Task.Heads Ending.stop? (some e) t := by
  obtain ⟨stop, v, req, finds, entered, came⟩ := asks
  have wraps := wraps_work (routes_eq wrap routes) f.context finds
    (wraps_within v.1.handler f.context req (wrap ++ v.2))
  have heads := wraps.heads seen entered came
  simpa only [caughtStop?, stop?, stop, if_true] using heads

/-- If the work has ended asking for a shutdown, so has the handler. -/
theorem asks_of_shutdown
    (seen : ((ofBuiltins wrap routes).work f.context f.incoming).after f.seen = some (.done (.shutdown e))) :
    f.Asks wrap routes e := by
  by_cases found : ∃ v req, Finds (endpointTable Prod.fst {} routes) f.incoming v req
  · obtain ⟨v, req, finds⟩ := found
    have wraps := wraps_work (routes_eq wrap routes) f.context finds
      (wraps_within v.1.handler f.context req (wrap ++ v.2))
    obtain ⟨entered, x, came, stop⟩ := wraps.ended seen
    rcases x with p | e' | res
    · cases stop
    · simp only [caughtStop?, stop?, Ending.stop?] at stop
      split at stop
      · next h =>
        rw [Option.some.injEq] at stop
        exact ⟨stop ▸ h, v, req, finds, entered, stop ▸ came⟩
      · cases stop
    · cases stop
  · have lost := heads_work (routes_eq wrap routes) f.context fun v req finds => found ⟨v, req, finds⟩
    cases h : f.seen with
    | nil =>
      rw [h, Task.after_nil] at seen
      cases seen
    | cons v vs =>
      rw [h] at seen
      cases lost.after seen with
      | done stop => cases stop

/-- A request that asks for a shutdown ends answered, its call to signal has returned, and it has told so. -/
theorem over_of_asks (asks : f.Asks wrap routes e) (sound : f.Sound (ofBuiltins wrap routes) calls)
    {outcome : Outcome} (finished : f.stage = .ended outcome) :
    outcome = .answered (traced f.context unavailable).toWire ∧ ∃ k c first, f.call = some k ∧ calls[k]? = some c ∧
      c.returned = some first ∧ f.told = signalled f.context e first :: droppedEvents f.context unavailable := by
  simp only [Flight.Sound, finished] at sound
  cases outcome with
  | answered wire =>
    obtain ⟨res, ends, rfl⟩ := sound
    generalize f.told = told at ends
    cases ends with
    | respond ended =>
      cases asks_heads asks ended with
      | done stop => cases stop
    | shutdown ended call hc returned =>
      cases asks_heads asks ended with
      | done stop =>
        simp only [Ending.stop?, Option.some.injEq] at stop
        exact ⟨rfl, _, _, _, call, hc, returned, stop ▸ rfl⟩
  | panicked p =>
    cases asks_heads asks sound.1 with
    | panicked none => cases none
  | abandoned =>
    obtain ⟨⟨t, seen, yields⟩, -⟩ := sound
    cases asks_heads asks seen <;> cases yields

/-- A request that asks for a shutdown cannot be given up any more. -/
theorem not_yields_of_asks (asks : f.Asks wrap routes e) (sound : f.Sound (ofBuiltins wrap routes) calls)
    {t : Task σ Ending} (working : f.stage = .working t) : t.yields = false := by
  simp only [Flight.Sound, working] at sound
  cases asks_heads asks sound.1 <;> rfl

theorem asks_of_call (sound : f.Sound (ofBuiltins wrap routes) calls) {k : Nat} (call : f.call = some k) :
    ∃ e, f.Asks wrap routes e := by
  obtain ⟨e, _, signals⟩ := sound.of_call call
  exact ⟨e, asks_of_shutdown signals.ended⟩

end

/-! ## What is told -/

def isFirst (e : Log.Event) : Bool := isSignalled e ∧ ("first", .bool true) ∈ e.fields

theorem isFirst_signalled (ctx : Context) (e : Failure) (first : Bool) : isFirst (signalled ctx e first) = first := by
  cases first <;> simp [isFirst, isSignalled, signalled, Context.traceField]

theorem isFirst_of_not_signalled {e : Log.Event} (h : isSignalled e = false) : isFirst e = false := by
  simp [isFirst, h]

theorem not_first {events : List Log.Event} (h : ∀ e ∈ events, isSignalled e = false) :
    events.filter isFirst = [] :=
  List.filter_eq_nil_iff.mpr fun e he => by simp [isFirst_of_not_signalled (h e he)]

section
variable {app : App σ} {calls : List Channel.SignalCall} {f : Flight σ}

/-- Only a flight with a call tells about a signal. -/
theorem Flight.Sound.told (sound : f.Sound app calls) {event : Log.Event} (he : event ∈ f.told)
    (about : isSignalled event = true) :
    ∃ e k c first, f.Signals app calls e k c ∧ event = signalled f.context e first := by
  rcases sound.cases with ⟨-, quiet⟩ | ⟨e, k, c, signals⟩
  · rw [quiet event he] at about
    cases about
  rcases signals.told with told | ⟨first, rest, -, told, quiet⟩
  · rw [told] at he
    cases he
  rw [told] at he
  rcases List.mem_cons.mp he with rfl | he
  · exact ⟨e, k, c, first, signals, rfl⟩
  · rw [quiet event he] at about
    cases about

/-- A flight tells at most once that its signal was the first, and only if its call has returned so. -/
theorem Flight.Sound.first (sound : f.Sound app calls) : f.told.filter isFirst = [] ∨
    (f.told.filter isFirst).length = 1 ∧
      ∃ k c, f.call = some k ∧ calls[k]? = some c ∧ c.returned = some true := by
  rcases sound.cases with ⟨-, quiet⟩ | ⟨e, k, c, signals⟩
  · exact .inl (not_first quiet)
  rcases signals.told with told | ⟨first, rest, returned, told, quiet⟩
  · exact .inl (by rw [told, List.filter_nil])
  rw [told, List.filter_cons, isFirst_signalled, not_first quiet]
  cases first with
  | false => exact .inl rfl
  | true => exact .inr ⟨rfl, k, c, signals.call, signals.mem, returned⟩

end

theorem length_flatMap_le_one {α β : Type} {φ : α → List β} {l : List α} (single : ∀ a ∈ l, (φ a).length ≤ 1)
    (alone : ∀ (i j : Nat) (a b : α), l[i]? = some a → l[j]? = some b → φ a ≠ [] → φ b ≠ [] → i = j) :
    (l.flatMap φ).length ≤ 1 := by
  induction l with
  | nil => simp
  | cons a l ih =>
    have hrest := ih (fun b hb => single b (List.mem_cons_of_mem a hb)) fun i j x y hi hj hx hy => by
      have := alone (i + 1) (j + 1) x y hi hj hx hy
      omega
    rw [List.flatMap_cons, List.length_append]
    by_cases ha : φ a = []
    · rw [ha]
      simpa using hrest
    · have empty : l.flatMap φ = [] := by
        refine List.flatMap_eq_nil_iff.mpr fun b hb => Decidable.byContradiction fun hne => ?_
        obtain ⟨j, hj⟩ := List.getElem?_of_mem hb
        have := alone 0 (j + 1) a b rfl hj ha hne
        omega
      rw [empty, List.length_nil]
      exact single a (List.mem_cons_self ..)

namespace Traffic

section
variable {app : App σ} {s : Traffic σ} (I : Inv app s)
include I

/-- The events that say so are those that the flights have told. -/
theorem first_perm : (s.shared.log.filter isFirst).Perm (s.flights.flatMap fun f => f.told.filter isFirst) := by
  have both : ∀ events : List Log.Event, (events.filter isSignalled).filter isFirst = events.filter isFirst := by
    intro events
    rw [List.filter_filter]
    refine List.filter_congr fun e _ => ?_
    cases h : isSignalled e with
    | true => simp
    | false => simp [isFirst_of_not_signalled h]
  have perm := I.log.filter isFirst
  rw [both, List.filter_flatMap] at perm
  simpa only [both] using perm

/-- One event at most says that its signal was the first. -/
theorem first_le_one : (s.shared.log.filter isFirst).length ≤ 1 := by
  rw [(first_perm I).length_eq]
  refine length_flatMap_le_one (fun f hf => ?_) fun i j f g hi hj hf hg => ?_
  · rcases (I.sound f hf).first with none | ⟨one, -⟩
    · simp [none]
    · exact Nat.le_of_eq one
  · obtain ⟨-, k, c, hk, hc, ck⟩ := (I.sound f (List.mem_of_getElem? hi)).first.resolve_left hf
    obtain ⟨-, k', d, hk', hd, dk⟩ := (I.sound g (List.mem_of_getElem? hj)).first.resolve_left hg
    have := Channel.true_unique I.session.inv hc hd ck dk
    exact I.apart i j f g k hi hj hk (this ▸ hk')

theorem first_of_told {f : Flight σ} (hf : f ∈ s.flights) (told : f.told.filter isFirst ≠ []) :
    (s.shared.log.filter isFirst).length = 1 := by
  refine Nat.le_antisymm (first_le_one I) ?_
  rw [(first_perm I).length_eq]
  obtain ⟨e, he⟩ := List.exists_mem_of_ne_nil _ told
  exact List.length_pos_of_mem (List.mem_flatMap.mpr ⟨f, hf, he⟩)

end

/-! ## Calls that have returned -/

/-- Once the flights that have a call to signal are over, all calls have returned. -/
theorem all_returned {app : App σ} {s : Traffic σ} (I : Inv app s)
    (finished : ∀ f ∈ s.flights, ∀ k, f.call = some k → f.isOver = true) :
    ∀ c ∈ s.session.calls, c.returned ≠ none := by
  intro c hc
  obtain ⟨k, hk⟩ := List.getElem?_of_mem hc
  obtain ⟨f, hf, call⟩ := I.called k (List.getElem?_eq_some_iff.mp hk).1
  obtain ⟨_, c', signals⟩ := (I.sound f hf).of_call call
  obtain rfl : c = c' := Option.some.inj (hk.symm.trans signals.mem)
  exact signals.returned (finished f hf k call)

/-! ## A request that asks comes to its end -/

/-- The `i`-th flight comes to its end if it goes on while nothing else happens. -/
def Finishes (app : App σ) (s : Traffic σ) (i : Nat) : Prop :=
  ∃ s' f, Along app i s s' ∧ s'.flights[i]? = some f ∧ f.isOver = true

/-- Then it is answered. -/
def Answers (app : App σ) (s : Traffic σ) (i : Nat) : Prop :=
  ∃ s' f wire, Along app i s s' ∧ s'.flights[i]? = some f ∧ f.stage = .ended (.answered wire)

section
variable {app : App σ} {s s' : Traffic σ} {i : Nat} {f g : Flight σ}

theorem Answers.finishes (answers : Answers app s i) : Finishes app s i := by
  obtain ⟨s', f, wire, along, hf, stage⟩ := answers
  exact ⟨s', f, along, hf, by simp [Flight.isOver, stage]⟩

theorem Answers.of_along (along : Along app i s s') (answers : Answers app s' i) : Answers app s i := by
  obtain ⟨s'', f, wire, along', hf, stage⟩ := answers
  exact ⟨s'', f, wire, along.trans along', hf, stage⟩

theorem answers_telling {res : Response} {events : List Log.Event} (hf : s.flights[i]? = some f)
    (telling : f.stage = .telling res events) : Answers app s i := by
  obtain ⟨g, shows, along⟩ := along_tell hf app telling
  exact ⟨_, g, _, along, getElem?_set_flight hf, shows.stage⟩

section
variable {e : Failure} {k : Nat} {c : Channel.SignalCall} (hf : s.flights[i]? = some f)
  (signalling : f.stage = .signalling e) (call : f.call = some k) (hc : s.session.calls[k]? = some c)
include hf signalling call hc

theorem answers_returned (returned : c.returned ≠ none) : Answers app s i := by
  obtain ⟨first, returned⟩ := Option.ne_none_iff_exists'.mp returned
  exact .of_along (along_step (step_returned hf signalling call hc app returned))
    (answers_telling (getElem?_set_flight hf) rfl)

theorem answers_signalling : Answers app s i := by
  cases hp : c.progress with
  | begun =>
    obtain ⟨session, -, along⟩ := along_signalling hf signalling call hc app hp
    exact .of_along along (answers_telling (getElem?_set_flight hf) rfl)
  | won =>
    obtain ⟨session, -, along⟩ := along_won hf signalling call hc app hp
    exact .of_along along (answers_telling (getElem?_set_flight hf) rfl)
  | lost => exact answers_returned hf signalling call hc (by simp [Channel.SignalCall.returned, hp])
  | tried sent => exact answers_returned hf signalling call hc (by simp [Channel.SignalCall.returned, hp])

end

theorem answers_done (plain : Channel.Plain s.session) (hf : s.flights[i]? = some f) {ending : Ending}
    (working : f.stage = .working (.done ending)) : Answers app s i := by
  cases ending with
  | respond res =>
    have h : step app s (.advance i) = some (s.set i (f.tell res [])) := by
      simp only [step, hf, advance, working, work]
    exact .of_along (along_step h) (answers_telling (getElem?_set_flight hf) rfl)
  | shutdown e =>
    let calls := s.session.calls ++ [{ sender := 0, signal := .terminate }]
    have h : step app s (.advance i) = some ({ s with session := { s.session with calls } }.set i
        { f with stage := .signalling e, call := some s.session.calls.length }) := by
      simp only [step, hf, advance, working, work, plain.call, Option.map_some, calls]
    exact .of_along (along_step h)
      (answers_signalling (getElem?_set_flight hf) rfl rfl List.getElem?_concat_length)

theorem answers_heading {e : Failure} {t : Task σ Ending} (heads : Task.Heads Ending.stop? (some e) t)
    (plain : Channel.Plain s.session) (hf : s.flights[i]? = some f) (working : f.stage = .working t) :
    Answers app s i := by
  induction heads generalizing s f with
  | done => exact answers_done plain hf working
  | panicked none => cases none
  | @step next effect _ ih =>
    obtain ⟨g, stage, -, -, along⟩ := along_move hf app working (w := effect.apply (s.world f)) rfl
    exact .of_along along (ih _ plain (getElem?_set_flight hf) stage)

end

end Traffic

/-! ## One shutdown -/

theorem unavailable_body :
    unavailable.body = Text.Utf8.bytes "\x7b\"error\":\"Service Unavailable\"\x7d" := by
  decide +kernel

/-- The flight's call has closed the latch, and its next step sends the signal. -/
def Traffic.Wins (s : Traffic σ) (i : Nat) : Prop :=
  ∃ f e k c, s.flights[i]? = some f ∧ f.stage = .signalling e ∧ f.call = some k ∧ s.session.calls[k]? = some c ∧
    c.progress = .won

/-- What becomes of the server when requests run side by side. -/
structure StopsOnce (wrap : List Builtin) (routes : List (Endpoint σ × List Builtin)) (service : σ)
    (as : List Traffic.Action) (s : Traffic σ) : Prop where
  /-- Nothing but a handler that asks for a shutdown signals. -/
  quiet : (∀ f ∈ s.flights, ∀ e, ¬f.Asks wrap routes e) →
    s.session.channel.isSignalled = false ∧ s.session.carried = []
  /-- There is one signal at most, queued or received. -/
  single : s.session.carried = [] ∨ s.session.carried = [.terminate]
  /-- A receiver that is still there gets it. -/
  delivered : (∃ f ∈ s.flights, ∃ e, f.Asks wrap routes e) →
    (∀ f ∈ s.flights, ∀ e, f.Asks wrap routes e → f.isOver = true) → s.session.channel.receiving = true →
    ∃ s', Traffic.step (ofBuiltins wrap routes) s .receive = some s' ∧ s'.session.received = [.terminate]
  /-- Whoever asks is answered, whatever becomes of the signal. -/
  answered : ∀ f ∈ s.flights, ∀ e, f.Asks wrap routes e → ∀ outcome, f.stage = .ended outcome →
    ∃ wire, outcome = .answered wire ∧ wire.status = .unavailable ∧
      wire.body = Text.Utf8.bytes "\x7b\"error\":\"Service Unavailable\"\x7d"
  /-- And comes to its end, since it cannot be given up any more. -/
  ends : ∀ (i : Nat) (f : Flight σ) (e : Failure), s.flights[i]? = some f → f.Asks wrap routes e →
    Traffic.step (ofBuiltins wrap routes) s (.giveUp i) = none ∧ Traffic.Finishes (ofBuiltins wrap routes) s i
  /-- The log tells of a signal only for a handler that asks, -/
  caused : ∀ event ∈ s.shared.log, isSignalled event = true →
    ∃ f ∈ s.flights, ∃ e first, f.Asks wrap routes e ∧ event = signalled f.context e first
  /-- once it is answered it does, -/
  logged : ∀ f ∈ s.flights, ∀ e, f.Asks wrap routes e → f.isOver = true →
    ∃ first, signalled f.context e first ∈ s.shared.log
  /-- and it tells at most once that a signal was the first. -/
  first : (s.shared.log.filter isFirst).length ≤ 1
  /-- It does if the receiver was there when the signal was sent. -/
  heard : ∀ before i after s₁, as = before ++ .advance i :: after →
    Traffic.run (ofBuiltins wrap routes) { shared := { service } } before = some s₁ → s₁.Wins i →
    s₁.session.channel.receiving = true → (∀ f, s.flights[i]? = some f → f.isOver = true) →
    (s.shared.log.filter isFirst).length = 1

section
variable {wrap : List Builtin} {routes : List (Endpoint σ × List Builtin)} {s : Traffic σ}
  (I : Traffic.Inv (ofBuiltins wrap routes) s)
include I

/-- Every call to signal is one of a handler that asks. -/
theorem asks_of_mem {c : Channel.SignalCall} (hc : c ∈ s.session.calls) :
    ∃ f ∈ s.flights, ∃ e, f.Asks wrap routes e := by
  obtain ⟨k, hk⟩ := List.getElem?_of_mem hc
  obtain ⟨f, hf, call⟩ := I.called k (List.getElem?_eq_some_iff.mp hk).1
  exact ⟨f, hf, asks_of_call (I.sound f hf) call⟩

theorem unused_of_quiet (nobody : ∀ f ∈ s.flights, ∀ e, ¬f.Asks wrap routes e) : s.session.calls = [] := by
  refine List.eq_nil_iff_forall_not_mem.mpr fun c hc => ?_
  obtain ⟨f, hf, e, asks⟩ := asks_of_mem I hc
  exact nobody f hf e asks

theorem carried_le_one : s.session.carried = [] ∨ s.session.carried = [.terminate] := by
  have single := I.session.inv.single
  cases h : s.session.carried with
  | nil => exact .inl rfl
  | cons sig rest =>
    rw [h, List.length_cons] at single
    have : rest = [] := List.length_eq_zero_iff.mp (by omega)
    obtain ⟨c, hc, -, rfl⟩ := I.session.inv.sent sig (h ▸ List.mem_cons_self ..)
    exact .inr (by rw [this, I.session.terminate c hc])

theorem carried_of_asks (asked : ∃ f ∈ s.flights, ∃ e, f.Asks wrap routes e)
    (finished : ∀ f ∈ s.flights, ∀ e, f.Asks wrap routes e → f.isOver = true)
    (receiving : s.session.channel.receiving = true) : s.session.carried = [.terminate] := by
  have some_call : s.session.calls ≠ [] := by
    obtain ⟨f, hf, e, asks⟩ := asked
    obtain ⟨outcome, stage⟩ := Flight.stage_of_isOver (finished f hf e asks)
    obtain ⟨-, k, c, -, -, hc, -⟩ := over_of_asks asks (I.sound f hf) stage
    exact List.ne_nil_of_mem (List.mem_of_getElem? hc)
  have returned : ∀ c ∈ s.session.calls, c.returned ≠ none := by
    refine Traffic.all_returned I fun f hf k call => ?_
    obtain ⟨e, asks⟩ := asks_of_call (I.sound f hf) call
    exact finished f hf e asks
  obtain ⟨c, hc, -, carried⟩ :=
    Channel.carried_of_receiving I.session.inv I.session.winner some_call returned receiving
  rw [carried, I.session.terminate c hc]

omit I in
theorem receives (receiving : s.session.channel.receiving = true) (carried : s.session.carried = [.terminate]) :
    ∃ s', Traffic.step (ofBuiltins wrap routes) s .receive = some s' ∧ s'.session.received = [.terminate] := by
  refine ⟨_, by simp only [Traffic.step, Traffic.receiver, Channel.step, receiving, if_true]; rfl, ?_⟩
  simp only [Channel.Session.carried] at carried
  cases queued : s.session.channel.queued with
  | none =>
    simp only [queued, Option.toList_none, List.nil_append] at carried
    simp only [Channel.receive, queued, carried]
    cases s.session.channel.senders.any id <;> rfl
  | some sig =>
    simp only [queued, Option.toList_some, List.singleton_append, List.cons.injEq] at carried
    simp [Channel.receive, Channel.Received.signal?, queued, carried]

theorem finishes_of_asks {i : Nat} {f : Flight σ} {e : Failure} (hf : s.flights[i]? = some f)
    (asks : f.Asks wrap routes e) :
    Traffic.step (ofBuiltins wrap routes) s (.giveUp i) = none ∧ Traffic.Finishes (ofBuiltins wrap routes) s i := by
  have sound := I.sound f (List.mem_of_getElem? hf)
  cases stage : f.stage with
  | working t =>
    have stays := not_yields_of_asks asks sound stage
    simp only [Flight.Sound, stage] at sound
    refine ⟨by simp [Traffic.step, hf, stage, stays], ?_⟩
    exact (Traffic.answers_heading (asks_heads asks sound.1) I.session hf stage).finishes
  | signalling e' =>
    simp only [Flight.Sound, stage] at sound
    obtain ⟨-, -, k, c, call, hc⟩ := sound
    exact ⟨by simp [Traffic.step, hf, stage], (Traffic.answers_signalling hf stage call hc).finishes⟩
  | telling res events => exact ⟨by simp [Traffic.step, hf, stage], (Traffic.answers_telling hf stage).finishes⟩
  | ended outcome =>
    exact ⟨by simp [Traffic.step, hf, stage], s, f, .refl s, hf, by simp [Flight.isOver, stage]⟩

theorem logged_of_asks {f : Flight σ} {e : Failure} (hf : f ∈ s.flights) (asks : f.Asks wrap routes e)
    (finished : f.isOver = true) : ∃ first, signalled f.context e first ∈ s.shared.log := by
  obtain ⟨outcome, stage⟩ := Flight.stage_of_isOver finished
  obtain ⟨-, -, -, first, -, -, -, told⟩ := over_of_asks asks (I.sound f hf) stage
  have about : isSignalled (signalled f.context e first) = true := by simp [isSignalled, signalled]
  have mem : signalled f.context e first ∈ f.told.filter isSignalled :=
    List.mem_filter.mpr ⟨told ▸ List.mem_cons_self .., about⟩
  exact ⟨first, (List.mem_filter.mp (I.log.mem_iff.mpr (List.mem_flatMap.mpr ⟨f, hf, mem⟩))).1⟩

theorem asks_of_logged {event : Log.Event} (he : event ∈ s.shared.log) (about : isSignalled event = true) :
    ∃ f ∈ s.flights, ∃ e first, f.Asks wrap routes e ∧ event = signalled f.context e first := by
  have mem := I.log.mem_iff.mp (List.mem_filter.mpr ⟨he, about⟩)
  obtain ⟨f, hf, told⟩ := List.mem_flatMap.mp mem
  obtain ⟨e, k, c, first, signals, eq⟩ := (I.sound f hf).told (List.mem_filter.mp told).1 about
  exact ⟨f, hf, e, first, asks_of_shutdown signals.ended, eq⟩

/-- The call that wins while the receiver is there returns that it was the first. -/
theorem heard_of_wins {s₁ : Traffic σ} {i : Nat} (I₁ : Traffic.Inv (ofBuiltins wrap routes) s₁) (wins : s₁.Wins i)
    (receiving : s₁.session.channel.receiving = true) {after : List Traffic.Action}
    (ran : Traffic.run (ofBuiltins wrap routes) s₁ (.advance i :: after) = some s)
    (finished : ∀ f, s.flights[i]? = some f → f.isOver = true) : (s.shared.log.filter isFirst).length = 1 := by
  obtain ⟨f₁, e₁, k, c, hf₁, stage₁, call₁, hc, won⟩ := wins
  -- the queue is empty, so the signal is sent
  have empty : s₁.session.channel.queued = none := by
    have := I₁.session.inv.carried_nil (List.mem_of_getElem? hc) won
    simp only [Channel.Session.carried, List.append_eq_nil_iff, Option.toList_eq_nil_iff] at this
    exact this.1
  let session : Channel.Session := { s₁.session with
    channel := { s₁.session.channel with queued := some c.signal }
    calls := s₁.session.calls.set k { c with progress := .tried true } }
  have sends : Traffic.step (ofBuiltins wrap routes) s₁ (.advance i) = some { s₁ with session } := by
    refine Traffic.step_channel hf₁ stage₁ call₁ hc _ (by simp [Channel.SignalCall.returned, won]) ?_
    simp [won, Channel.step, hc, Channel.trySend, receiving, empty, session]
  rw [Traffic.run, sends] at ran
  have persists := (Traffic.inv_run ((Traffic.step_goes I₁ sends).inv I₁) ran).2
  -- and what the call has returned is still there when its flight is over
  have hk : session.calls[k]? = some _ := List.getElem?_set_self (List.getElem?_eq_some_iff.mp hc).1
  obtain ⟨c', hc', -, returned⟩ := persists.later k _ hk
  obtain ⟨f, hf, call⟩ := persists.flight i f₁ hf₁
  have sound := I.sound f (List.mem_of_getElem? hf)
  obtain ⟨e, asks⟩ := asks_of_call sound (call k call₁)
  obtain ⟨outcome, stage⟩ := Flight.stage_of_isOver (finished f hf)
  obtain ⟨-, k', d, first, call', hd, hfirst, told⟩ := over_of_asks asks sound stage
  obtain rfl : k = k' := Option.some.inj ((call k call₁).symm.trans call')
  obtain rfl : c' = d := Option.some.inj (hc'.symm.trans hd)
  obtain rfl : true = first := Option.some.inj ((returned true rfl).symm.trans hfirst)
  refine Traffic.first_of_told I (List.mem_of_getElem? hf) ?_
  rw [told, List.filter_cons, isFirst_signalled]
  exact List.cons_ne_nil _ _

end

/-- Only a handler that asks for a shutdown stops the server, and only once, in whatever order requests take
turns. -/
theorem stops_once (wrap : List Builtin) (routes : List (Endpoint σ × List Builtin)) (service : σ)
    (as : List Traffic.Action) (s : Traffic σ)
    (h : Traffic.run (ofBuiltins wrap routes) { shared := { service } } as = some s) :
    StopsOnce wrap routes service as s := by
  have start := Traffic.inv_init (ofBuiltins wrap routes) service
  have I := (Traffic.inv_run start h).1
  constructor
  case quiet => exact fun nobody => Channel.untouched I.session.inv (unused_of_quiet I nobody)
  case single => exact carried_le_one I
  case delivered =>
    exact fun asked finished receiving => receives receiving (carried_of_asks I asked finished receiving)
  case answered =>
    intro f hf e asks outcome stage
    refine ⟨_, (over_of_asks asks (I.sound f hf) stage).1, rfl, unavailable_body⟩
  case ends => exact fun i f e hf asks => finishes_of_asks I hf asks
  case caused => exact fun event he about => asks_of_logged I he about
  case logged => exact fun f hf e asks finished => logged_of_asks I hf asks finished
  case first => exact Traffic.first_le_one I
  case heard =>
    rintro before i after s₁ rfl ran wins receiving finished
    rw [Traffic.run_append, ran] at h
    exact heard_of_wins I (Traffic.inv_run start ran).1 wins receiving h finished

/-- A route whose handler waits for its turn and then asks for a shutdown. -/
def drainingRoutes : List (Endpoint Unit × List Builtin) :=
  [(⟨.get, "v1", "drain", fun _ _ => .pause (.done (.error (.shutdown "no more")))⟩, [.errors])]

def drainingRequest : Incoming := { target := { origin := "", path := "/v1/drain", query := none } }

def drainingRun : List Traffic.Action :=
  .arrive drainingRequest .epoch :: .arrive drainingRequest .epoch ::
    ((List.replicate 12 [.advance 0, .advance 1]).flatten ++ [.advance 0])

/-- Both ask, and one signal is there. -/
theorem stops_once_draining : ∃ s, Traffic.run (ofBuiltins [.logger, .panics] drainingRoutes)
      { shared := { service := () } } drainingRun = some s ∧ s.session.carried = [.terminate] ∧
    StopsOnce [.logger, .panics] drainingRoutes () drainingRun s := by
  have carried : (Traffic.run (ofBuiltins [.logger, .panics] drainingRoutes) { shared := { service := () } }
      drainingRun).map (fun s => s.session.carried) = some [.terminate] := by decide +kernel
  obtain ⟨s, ran, one⟩ := Option.map_eq_some_iff.mp carried
  exact ⟨s, ran, one, stops_once _ _ _ _ s ran⟩

end App

end JsonService
