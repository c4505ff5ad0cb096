import JsonService.Proofs.Layers.Outcome
import JsonService.Proofs.Shutdown.Winner

/-!
# Flights and their calls to signal

What holds of requests that are under way at once, whatever order they take turns in: where each of them is, which
call to signal is whose, and what of the log is about signals.

**The invariant (`Inv`).** The channel is as `Channel.Plain` says, and every call on it belongs to one flight
whose work has ended asking for a shutdown. A flight is as far as what its work has seen brings it (`Sound`). The
events about signals in the log are those that the flights have told.

**Results.**
* `Flight.Sound.cases`: a flight has a call to signal and tells what it returned, or it tells nothing of signals.
* `step_goes`: what a step can do to calls, flights and the log.
* `Goes.inv`, `Goes.persists`, `inv_run`: the invariant holds in every run, a flight keeps its call, and what a call
  has returned stays.
-/
namespace JsonService

variable {σ : Type}

namespace App

open Channel (Later Plain)

/-! ## Flights -/

/-- The response of a flight whose work has ended, and everything that it logs from then on. -/
inductive Flight.Ends (app : App σ) (calls : List Channel.SignalCall) (f : Flight σ) :
    Response → List Log.Event → Prop
  | respond : (app.work f.context f.incoming).after f.seen = some (.done (.respond res)) → f.call = none →
      Ends app calls f (traced f.context res) (droppedEvents f.context res)
  | shutdown : (app.work f.context f.incoming).after f.seen = some (.done (.shutdown e)) → f.call = some k →
      calls[k]? = some c → c.returned = some first →
      Ends app calls f (traced f.context unavailable)
        (signalled f.context e first :: droppedEvents f.context unavailable)

/-- A flight is where what its work has seen brings it. -/
def Flight.Sound (app : App σ) (calls : List Channel.SignalCall) (f : Flight σ) : Prop :=
  match f.stage with
  | .working t => (app.work f.context f.incoming).after f.seen = some t ∧ f.call = none ∧ f.told = []
  | .signalling e =>
    (app.work f.context f.incoming).after f.seen = some (.done (.shutdown e)) ∧ f.told = [] ∧
      ∃ k c, f.call = some k ∧ calls[k]? = some c
  | .telling res events => f.Ends app calls res (f.told ++ events)
  | .ended (.answered wire) => ∃ res, f.Ends app calls res f.told ∧ wire = res.toWire
  | .ended (.panicked p) =>
    (app.work f.context f.incoming).after f.seen = some (.panicked p) ∧ f.call = none ∧ f.told = []
  | .ended .abandoned =>
    (∃ t, (app.work f.context f.incoming).after f.seen = some t ∧ t.yields = true) ∧ f.call = none ∧ f.told = []

section
variable {app : App σ} {calls calls' : List Channel.SignalCall} {f : Flight σ}

theorem Flight.Ends.later {res : Response} {events : List Log.Event} (later : Later calls calls')
    (h : f.Ends app calls res events) : f.Ends app calls' res events := by
  cases h with
  | respond ended hcall => exact .respond ended hcall
  | shutdown ended hcall hc returned =>
    obtain ⟨c', hc', -, hr⟩ := later _ _ hc
    exact .shutdown ended hcall hc' (hr _ returned)

/-- Where a flight ends depends on its request, on what its work has seen and on its call. -/
theorem Flight.Ends.of_eq {g : Flight σ} {res : Response} {events : List Log.Event} (h : f.Ends app calls res events)
    (context : g.context = f.context) (incoming : g.incoming = f.incoming) (seen : g.seen = f.seen)
    (call : g.call = f.call) : g.Ends app calls res events := by
  cases h with
  | respond ended none =>
    rw [← context]
    exact .respond (by rw [context, incoming, seen]; exact ended) (call.trans none)
  | shutdown ended hcall hc returned =>
    rw [← context]
    exact .shutdown (by rw [context, incoming, seen]; exact ended) (call.trans hcall) hc returned

theorem Flight.Sound.later (later : Later calls calls') (h : f.Sound app calls) : f.Sound app calls' := by
  unfold Flight.Sound at h ⊢
  split at h
  · exact h
  · obtain ⟨ended, told, k, c, hcall, hc⟩ := h
    obtain ⟨c', hc', -⟩ := later _ _ hc
    exact ⟨ended, told, k, c', hcall, hc'⟩
  · exact h.later later
  · obtain ⟨res, ends, wire⟩ := h
    exact ⟨res, ends.later later, wire⟩
  · exact h
  · exact h

/-- The flight has a call to signal of its own, and what it has told of signals is what the call has returned. -/
structure Flight.Signals (app : App σ) (calls : List Channel.SignalCall) (f : Flight σ) (e : Failure) (k : Nat)
    (c : Channel.SignalCall) : Prop where
  /-- Its work has ended asking for a shutdown. -/
  ended : (app.work f.context f.incoming).after f.seen = some (.done (.shutdown e))
  call : f.call = some k
  mem : calls[k]? = some c
  told : f.told = [] ∨ ∃ first rest, c.returned = some first ∧ f.told = signalled f.context e first :: rest ∧
    ∀ event ∈ rest, isSignalled event = false
  returned : f.isOver = true → c.returned ≠ none

/-- The flight has no call and tells of none. -/
def Flight.Quiet (f : Flight σ) : Prop := f.call = none ∧ ∀ event ∈ f.told, isSignalled event = false

theorem isSignalled_dropped (ctx : Context) (res : Response) :
    ∀ event ∈ droppedEvents ctx res, isSignalled event = false := by
  intro event he
  obtain ⟨name, -, rfl⟩ := List.mem_map.mp he
  simp [isSignalled, State.droppedEvent]

theorem Flight.Ends.cases {res : Response} {events : List Log.Event} (h : f.Ends app calls res (f.told ++ events)) :
    f.Quiet ∨ ∃ e k c, f.Signals app calls e k c := by
  generalize split : f.told ++ events = all at h
  cases h with
  | respond _ none =>
    exact .inl ⟨none, fun event he => isSignalled_dropped _ _ event (split ▸ List.mem_append_left _ he)⟩
  | shutdown ended call hc returned =>
    refine .inr ⟨_, _, _, ended, call, hc, ?_, fun _ => by simp [returned]⟩
    cases told : f.told with
    | nil => exact .inl rfl
    | cons event rest =>
      rw [told, List.cons_append, List.cons.injEq] at split
      refine .inr ⟨_, rest, returned, by rw [split.1], fun event he => ?_⟩
      exact isSignalled_dropped _ _ event (split.2 ▸ List.mem_append_left _ he)

/-- A flight has a call of its own or has nothing to do with signals. -/
theorem Flight.Sound.cases (h : f.Sound app calls) : f.Quiet ∨ ∃ e k c, f.Signals app calls e k c := by
  have quiet : f.call = none → f.told = [] → f.Quiet := fun call told => ⟨call, by simp [told]⟩
  unfold Flight.Sound at h
  split at h
  · exact .inl (quiet h.2.1 h.2.2)
  · next stage =>
    obtain ⟨ended, told, k, c, call, hc⟩ := h
    exact .inr ⟨_, k, c, ended, call, hc, .inl told, fun isOver => by simp [Flight.isOver, stage] at isOver⟩
  · exact h.cases
  · obtain ⟨res, ends, -⟩ := h
    rw [← List.append_nil f.told] at ends
    exact ends.cases
  · exact .inl (quiet h.2.1 h.2.2)
  · exact .inl (quiet h.2.1 h.2.2)

theorem Flight.Sound.of_call (h : f.Sound app calls) {k : Nat} (hcall : f.call = some k) :
    ∃ e c, f.Signals app calls e k c := by
  rcases h.cases with ⟨none, -⟩ | ⟨e, k', c, signals⟩
  · rw [none] at hcall
    cases hcall
  · obtain rfl : k' = k := Option.some.inj (signals.call.symm.trans hcall)
    exact ⟨e, c, signals⟩

end

/-! ## The invariant -/

namespace Traffic

structure Inv (app : App σ) (s : Traffic σ) : Prop where
  session : Plain s.session
  sound : ∀ f ∈ s.flights, f.Sound app s.session.calls
  /-- No two flights share a call. -/
  apart : ∀ (i j : Nat) (f g : Flight σ) (k : Nat), s.flights[i]? = some f → s.flights[j]? = some g →
    f.call = some k → g.call = some k → i = j
  /-- Every call is some flight's. -/
  called : ∀ k, k < s.session.calls.length → ∃ f ∈ s.flights, f.call = some k
  log : (s.shared.log.filter isSignalled).Perm (s.flights.flatMap fun f => f.told.filter isSignalled)

theorem inv_init (app : App σ) (service : σ) : Inv app { shared := { service } } :=
  ⟨Channel.plain_init, by simp, by simp, by simp, by simp⟩

/-- One element of a list replaced by one that adds something to what all of them have. -/
theorem flatMap_set_perm {α β : Type} {l : List α} {i : Nat} {a b : α} (φ : α → List β) (hi : l[i]? = some a)
    {added : List β} (h : φ b = φ a ++ added) : (l.flatMap φ ++ added).Perm ((l.set i b).flatMap φ) := by
  obtain ⟨hlt, rfl⟩ := List.getElem?_eq_some_iff.mp hi
  obtain ⟨before, after, split, -, replaced⟩ : ∃ before after, l = before ++ l[i] :: after ∧
    before.length = i ∧ l.set i b = before ++ b :: after := List.exists_of_set hlt
  have whole : l.flatMap φ = before.flatMap φ ++ φ l[i] ++ after.flatMap φ :=
    (congrArg (List.flatMap φ) split).trans (by simp)
  simp only [whole, replaced, List.flatMap_append, List.flatMap_cons, h, List.append_assoc]
  exact List.Perm.append_left _ (List.Perm.append_left _ List.perm_append_comm)

/-- What a flight may do to its call: keep it, or begin one. -/
def Calls (f g : Flight σ) (calls calls' : List Channel.SignalCall) : Prop :=
  (g.call = f.call ∧ calls'.length = calls.length) ∨
    (f.call = none ∧ g.call = some calls.length ∧ calls'.length = calls.length + 1)

/-- One step of the traffic, as far as calls to signal and the log are concerned: a request more, a step of the
channel, or a flight that goes on. -/
inductive Goes (app : App σ) (s : Traffic σ) : Traffic σ → Prop
  | arrive (contexts : Nat) (ctx : Context) (r : Incoming) : Goes app s { s with contexts, flights := s.flights ++
      [{ incoming := r, context := ctx, stage := .working (app.work ctx r) }] }
  | channel {a : Channel.Action} {session : Channel.Session} : a.plain → (∀ n sig, a ≠ .call n sig) →
      Channel.step s.session a = some session → Goes app s { s with session }
  | flight {i : Nat} {f g : Flight σ} {shared : Shared σ} {session : Channel.Session} {events : List Log.Event} :
      s.flights[i]? = some f → Plain session → Later s.session.calls session.calls →
      g.Sound app session.calls → Calls f g s.session.calls session.calls →
      shared.log = s.shared.log ++ events →
      g.told.filter isSignalled = f.told.filter isSignalled ++ events.filter isSignalled →
      Goes app s ({ s with shared, session }.set i g)

section
variable {app : App σ} {s s' : Traffic σ} {i : Nat} {f g : Flight σ}

theorem Inv.call_lt (I : Inv app s) (hf : f ∈ s.flights) {k : Nat} (hcall : f.call = some k) :
    k < s.session.calls.length := by
  obtain ⟨_, c, signals⟩ := (I.sound f hf).of_call hcall
  exact (List.getElem?_eq_some_iff.mp signals.mem).1

/-- No two flights share a call once one of them has gone on: a call that has just begun is new. -/
theorem Inv.apart_set (I : Inv app s) (hf : s.flights[i]? = some f) {calls : List Channel.SignalCall}
    (hg : Calls f g s.session.calls calls) {j j' k : Nat} {x y : Flight σ} (hj : (s.flights.set i g)[j]? = some x)
    (hj' : (s.flights.set i g)[j']? = some y) (hx : x.call = some k) (hy : y.call = some k) : j = j' := by
  have fresh : ∀ {j x}, j ≠ i → s.flights[j]? = some x → x.call = some k → g.call ≠ some k := by
    intro j x hj hx hcall hgk
    rcases hg with ⟨same, -⟩ | ⟨-, new, -⟩
    · exact hj (I.apart j i x f k hx hf hcall (same ▸ hgk))
    · rw [new, Option.some.injEq] at hgk
      exact Nat.lt_irrefl _ (hgk ▸ I.call_lt (List.mem_of_getElem? hx) hcall)
  simp only [List.getElem?_set] at hj hj'
  split at hj <;> split at hj'
  · omega
  · next hne =>
    split at hj
    · rw [Option.some.injEq] at hj
      exact absurd (hj ▸ hx) (fresh (Ne.symm hne) hj' hy)
    · cases hj
  · next hne _ =>
    split at hj'
    · rw [Option.some.injEq] at hj'
      exact absurd (hj' ▸ hy) (fresh (Ne.symm hne) hj hx)
    · cases hj'
  · exact I.apart j j' x y k hj hj' hx hy

theorem Inv.called_set (I : Inv app s) (hf : s.flights[i]? = some f) {calls : List Channel.SignalCall}
    (hg : Calls f g s.session.calls calls) {k : Nat} (hk : k < calls.length) :
    ∃ x ∈ s.flights.set i g, x.call = some k := by
  have hi : i < s.flights.length := (List.getElem?_eq_some_iff.mp hf).1
  have kept : ∀ {x}, x ∈ s.flights → x.call = some k → (x = f → g.call = some k) →
      ∃ x ∈ s.flights.set i g, x.call = some k := by
    intro x hx hcall hxf
    obtain ⟨j, hj⟩ := List.getElem?_of_mem hx
    by_cases hij : i = j
    · subst hij
      have : x = f := Option.some.inj (hj.symm.trans hf)
      exact ⟨g, List.mem_set hi g, hxf this⟩
    · exact ⟨x, List.mem_of_getElem? (by rw [List.getElem?_set_ne hij]; exact hj), hcall⟩
  rcases hg with ⟨same, length⟩ | ⟨none, new, length⟩
  · obtain ⟨x, hx, hcall⟩ := I.called k (length ▸ hk)
    exact kept hx hcall fun h => by rw [same, ← h, hcall]
  · by_cases hlast : k = s.session.calls.length
    · exact ⟨g, List.mem_set hi g, by rw [new, hlast]⟩
    · obtain ⟨x, hx, hcall⟩ := I.called k (by omega)
      exact kept hx hcall fun h => by rw [h, none] at hcall; cases hcall

theorem Inv.arrive (I : Inv app s) (contexts : Nat) (ctx : Context) (r : Incoming) :
    Inv app { s with contexts, flights := s.flights ++
      [{ incoming := r, context := ctx, stage := .working (app.work ctx r) }] } := by
  have old : ∀ {j : Nat} {x : Flight σ} {k : Nat}, (s.flights ++
      [{ incoming := r, context := ctx, stage := .working (app.work ctx r) }])[j]? = some x → x.call = some k →
        s.flights[j]? = some x := by
    intro j x k hj hcall
    rw [List.getElem?_append] at hj
    split at hj
    · exact hj
    · rw [List.mem_singleton.mp (List.mem_of_getElem? hj)] at hcall
      cases hcall
  refine ⟨I.session, ?_, ?_, ?_, ?_⟩
  · intro f hf
    rcases List.mem_append.mp hf with hf | hf
    · exact I.sound f hf
    · rw [List.mem_singleton.mp hf]
      exact ⟨Task.after_nil _, rfl, rfl⟩
  · exact fun i j f g k hi hj hf hg => I.apart i j f g k (old hi hf) (old hj hg) hf hg
  · intro k hk
    obtain ⟨f, hf, hcall⟩ := I.called k hk
    exact ⟨f, List.mem_append_left _ hf, hcall⟩
  · rw [List.flatMap_append, List.flatMap_singleton, List.filter_nil, List.append_nil]
    exact I.log

theorem Goes.inv (I : Inv app s) (h : Goes app s s') : Inv app s' := by
  cases h with
  | arrive contexts ctx r => exact I.arrive contexts ctx r
  | channel plain hcall h =>
    have length := Channel.length_step hcall h
    refine ⟨Channel.plain_step I.session plain h, ?_, I.apart, ?_, I.log⟩
    · exact fun f hf => (I.sound f hf).later (Channel.later_step h)
    · exact fun k hk => I.called k (length ▸ hk)
  | flight hf plain later hg calls log told =>
    refine ⟨plain, ?_, ?_, ?_, ?_⟩
    · intro x hx
      rcases List.mem_or_eq_of_mem_set hx with hx | rfl
      · exact (I.sound x hx).later later
      · exact hg
    · exact fun j j' x y k hj hj' hx hy => I.apart_set hf calls hj hj' hx hy
    · exact fun k hk => I.called_set hf calls hk
    · simp only [Traffic.set, log, List.filter_append]
      exact (I.log.append_right _).trans (flatMap_set_perm _ hf told)

/-- What is said of calls stays true, and a flight keeps its call. -/
structure Persists (s s' : Traffic σ) : Prop where
  later : Later s.session.calls s'.session.calls
  flight : ∀ (i : Nat) (f : Flight σ), s.flights[i]? = some f →
    ∃ f', s'.flights[i]? = some f' ∧ ∀ k, f.call = some k → f'.call = some k

theorem Persists.refl (s : Traffic σ) : Persists s s := ⟨Later.refl _, fun _ f hf => ⟨f, hf, fun _ h => h⟩⟩

theorem Persists.trans {s'' : Traffic σ} (h : Persists s s') (h' : Persists s' s'') : Persists s s'' := by
  refine ⟨h.later.trans h'.later, fun i f hf => ?_⟩
  obtain ⟨f', hf', call⟩ := h.flight i f hf
  obtain ⟨f'', hf'', call'⟩ := h'.flight i f' hf'
  exact ⟨f'', hf'', fun k hk => call' k (call k hk)⟩

theorem Goes.persists (h : Goes app s s') : Persists s s' := by
  cases h with
  | arrive contexts ctx r =>
    refine ⟨Later.refl _, fun i f hf => ⟨f, ?_, fun _ h => h⟩⟩
    rw [List.getElem?_append_left (List.getElem?_eq_some_iff.mp hf).1, hf]
  | channel _ _ h => exact ⟨Channel.later_step h, fun _ f hf => ⟨f, hf, fun _ h => h⟩⟩
  | @flight i f g shared session events hf _ later _ calls _ _ =>
    refine ⟨later, fun j x hx => ?_⟩
    by_cases hij : i = j
    · subst hij
      obtain rfl : x = f := Option.some.inj (hx.symm.trans hf)
      refine ⟨g, List.getElem?_set_self (List.getElem?_eq_some_iff.mp hf).1, fun k hk => ?_⟩
      rcases calls with ⟨same, -⟩ | ⟨none, -⟩
      · rw [same, hk]
      · rw [none] at hk
        cases hk
    · exact ⟨x, (List.getElem?_set_ne hij).trans hx, fun _ h => h⟩

/-! ## What one step does -/

theorem not_signalled {events : List Log.Event} (h : ∀ e ∈ events, isSignalled e = false) :
    events.filter isSignalled = [] :=
  List.filter_eq_nil_iff.mpr fun e he => by simp [h e he]

variable (I : Inv app s) (hf : s.flights[i]? = some f)
include I hf

theorem goes_put (hg : g.Sound app s.session.calls) (call : g.call = f.call) (told : g.told = f.told) :
    Goes app s (s.set i g) :=
  .flight hf I.session (Later.refl _) hg (.inl ⟨call, rfl⟩) (List.append_nil _).symm (by simp [told])

theorem goes_move {t t' : Task σ Ending} {w : World σ} (hstage : f.stage = .working t)
    (h : t.move (s.world f) = some (t', w)) :
    Goes app s ({ s with shared := w.shared }.set i
      { f with state := w.request, seen := f.seen ++ [(s.world f).view], stage := .working t' }) := by
  have sound := I.sound f (List.mem_of_getElem? hf)
  simp only [Flight.Sound, hstage] at sound
  obtain ⟨seen, call, told⟩ := sound
  obtain ⟨events, log, quiet⟩ := ((logs_work app f.context f.incoming).after seen).move h
  refine .flight hf I.session (Later.refl _) ⟨?_, call, told⟩ (.inl ⟨rfl, rfl⟩) log ?_
  · rw [Task.after_append, seen]
    exact Task.after_move h
  · rw [not_signalled quiet, List.append_nil]

theorem goes_work {t : Task σ Ending} {s' : Traffic σ} (hstage : f.stage = .working t)
    (h : s.work i f t = some s') : Goes app s s' := by
  have sound := I.sound f (List.mem_of_getElem? hf)
  simp only [Flight.Sound, hstage] at sound
  obtain ⟨seen, call, told⟩ := sound
  cases t with
  | done ending =>
    cases ending with
    | respond res =>
      simp only [work, Option.some.injEq] at h
      subst h
      refine goes_put I hf ?_ rfl rfl
      simp only [Flight.Sound, Flight.tell, told, List.nil_append]
      exact .of_eq (.respond seen call) rfl rfl rfl rfl
    | shutdown e =>
      simp only [work, I.session.call, Option.map_some, Option.some.injEq] at h
      subst h
      have hstep := I.session.call
      have plain : Channel.Action.plain (.call 0 .terminate) := rfl
      refine .flight hf (Channel.plain_step I.session plain hstep) (Channel.later_step hstep) ⟨seen, told, ?_⟩
        (.inr ⟨call, rfl, by simp⟩) (List.append_nil _).symm (by simp)
      exact ⟨_, _, rfl, List.getElem?_concat_length⟩
  | panicked p =>
    simp only [work, Option.some.injEq] at h
    subst h
    exact goes_put I hf ⟨seen, call, told⟩ rfl rfl
  | step | pause | await =>
    simp only [work, Option.map_eq_some_iff] at h
    obtain ⟨⟨t', w⟩, hmove, rfl⟩ := h
    exact goes_move I hf hstage hmove

theorem goes_signal {e : Failure} {s' : Traffic σ} (hstage : f.stage = .signalling e)
    (h : s.signal i f e = some s') : Goes app s s' := by
  have sound := I.sound f (List.mem_of_getElem? hf)
  simp only [Flight.Sound, hstage] at sound
  obtain ⟨ended, told, k, c, hcall, hc⟩ := sound
  simp only [signal, hcall, hc] at h
  split at h
  · next first returned =>
    simp only [Option.some.injEq] at h
    subst h
    refine goes_put I hf ?_ rfl rfl
    simp only [Flight.Sound, Flight.tell, told, List.nil_append, List.cons_append]
    exact .of_eq (.shutdown ended hcall hc returned) rfl rfl rfl rfl
  · simp only [Option.map_eq_some_iff] at h
    obtain ⟨session, hstep, rfl⟩ := h
    refine .channel ?_ ?_ hstep
    · split <;> trivial
    · intro n sig
      split <;> simp

theorem goes_tell {res : Response} {events : List Log.Event} (hstage : f.stage = .telling res events) :
    Goes app s (s.tell i f res events) := by
  have ends := I.sound f (List.mem_of_getElem? hf)
  simp only [Flight.Sound, hstage] at ends
  cases events with
  | nil =>
    rw [List.append_nil] at ends
    exact goes_put I hf ⟨res, ends.of_eq rfl rfl rfl rfl, rfl⟩ rfl rfl
  | cons e events =>
    refine .flight hf I.session (Later.refl _) ?_ (.inl ⟨rfl, rfl⟩) rfl (List.filter_append ..)
    simp only [Flight.Sound, List.append_assoc, List.cons_append, List.nil_append]
    exact ends.of_eq rfl rfl rfl rfl

theorem goes_advance {s' : Traffic σ} (h : s.advance i f = some s') : Goes app s s' := by
  unfold advance at h
  split at h
  · next hstage => exact goes_work I hf hstage h
  · next hstage => exact goes_signal I hf hstage h
  · next hstage =>
    rw [Option.some.injEq] at h
    exact h ▸ goes_tell I hf hstage
  · cases h

theorem goes_giveUp {t : Task σ Ending} (hstage : f.stage = .working t) (yields : t.yields = true) :
    Goes app s (s.set i (f.finish .abandoned)) := by
  have sound := I.sound f (List.mem_of_getElem? hf)
  simp only [Flight.Sound, hstage] at sound
  exact goes_put I hf ⟨⟨t, sound.1, yields⟩, sound.2⟩ rfl rfl

theorem goes_cancel : Goes app s (s.set i { f with cancelled := true }) := by
  refine goes_put I hf ?_ rfl rfl
  have sound := I.sound f (List.mem_of_getElem? hf)
  simp only [Flight.Sound] at sound ⊢
  split at sound
  · exact sound
  · exact sound
  · exact sound.of_eq rfl rfl rfl rfl
  · obtain ⟨res, ends, wire⟩ := sound
    exact ⟨res, ends.of_eq rfl rfl rfl rfl, wire⟩
  · exact sound
  · exact sound

end

theorem step_goes {app : App σ} {s s' : Traffic σ} {a : Action} (I : Inv app s) (h : step app s a = some s') :
    Goes app s s' := by
  have receiver : ∀ a : Channel.Action, a.plain → (∀ n sig, a ≠ .call n sig) → s.receiver a = some s' →
      Goes app s s' := by
    intro a plain hcall h
    simp only [Traffic.receiver, Option.map_eq_some_iff] at h
    obtain ⟨session, hstep, rfl⟩ := h
    exact .channel plain hcall hstep
  cases a with
  | arrive r arrived =>
    simp only [step, Option.some.injEq] at h
    exact h ▸ .arrive _ _ r
  | advance i =>
    simp only [step] at h
    split at h
    · cases h
    · exact goes_advance I ‹_› h
  | giveUp i =>
    simp only [step] at h
    split at h
    · cases h
    split at h
    · split at h
      · rw [Option.some.injEq] at h
        exact h ▸ goes_giveUp I ‹_› ‹_› ‹_›
      · cases h
    · cases h
  | cancel i =>
    simp only [step] at h
    split at h
    · cases h
    · rw [Option.some.injEq] at h
      exact h ▸ goes_cancel I ‹_›
  | tryReceive => exact receiver .tryReceive trivial (by simp) h
  | receive => exact receiver .receive trivial (by simp) h
  | dropReceiver => exact receiver .dropReceiver trivial (by simp) h

/-- Every run keeps the invariant, and what is said of calls stays true. -/
theorem inv_run {app : App σ} {s s' : Traffic σ} {as : List Action} (I : Inv app s) (h : run app s as = some s') :
    Inv app s' ∧ Persists s s' := by
  induction as generalizing s with
  | nil =>
    rw [run, Option.some.injEq] at h
    exact h ▸ ⟨I, Persists.refl s⟩
  | cons a as ih =>
    rw [run, Option.bind_eq_some_iff] at h
    obtain ⟨s₁, h₁, h₂⟩ := h
    have goes := step_goes I h₁
    obtain ⟨I', persists⟩ := ih (goes.inv I) h₂
    exact ⟨I', goes.persists.trans persists⟩

end Traffic

end App

end JsonService
