import JsonService.Proofs.App.Own
import JsonService.Proofs.Layers.Effects
import JsonService.Proofs.Tokens

/-!
# Requests and their tokens

Requests side by side, each with a cancellation token of its own: a child of the token that whoever runs it has given
it. Anybody may make tokens, make children of any token, and cancel any token, those of requests among them. A request
cancels its own token when it is over, however it ends, and when its work asks for that.

**Leashes.** The token that a request was given, and its own.

**The invariant (`Held`).** A request's own token hangs on the one that it was given and on what that hangs on, and on
nothing else. It is cancelled if the one that it was given is, if somebody has cancelled it, or if the request has; a
request that is over has.

**Results.**
* `turned_advance`, `turned_giveUp`: what a turn of a request does.
* `run_traffic`: what happens to requests with tokens could happen to them without.
* `Tells.cancel`, `Tells.cancel_other`, `Tells.proceeds`: what a cancellation by somebody, one by another request and a
  turn of its own are to a request.
* `Held.step`, `held_run`: every step keeps the invariant, so it holds in every run.
* `cancelled_when_over`: when the context of a request is cancelled, and whom that concerns.
-/
namespace JsonService

variable {σ : Type}

namespace App

/-- The token that a request was given, and its own, by number. -/
structure Leash where
  parent : Nat
  own : Nat
  deriving DecidableEq, Repr

/-- Requests side by side, and tokens. The `i`-th leash is that of the `i`-th request. -/
structure Tethered (σ : Type) where
  traffic : Traffic σ
  tokens : Tokens := .empty
  leashes : List Leash := []

inductive Tethered.Action where
  /-- Somebody makes a token, -/
  | create
  /-- or a child of one, -/
  | child (t : Nat)
  /-- or cancels one. -/
  | cancel (t : Nat)
  /-- A request comes with a token. -/
  | dispatch (r : Incoming) (arrived : Time) (parent : Nat)
  | advance (i : Nat)
  /-- Whoever runs the request drops its work. -/
  | giveUp (i : Nat)
  | tryReceive
  | receive
  | dropReceiver

namespace Tethered

/-- The work of a request is told that its token is cancelled before it goes on. -/
def heard (s : Tethered σ) (l : Leash) (i : Nat) : List Traffic.Action :=
  if s.tokens.isCancelled l.own then [.cancel i] else []

/-- A turn of the `i`-th request. If it has cancelled its context, its token is cancelled. -/
def turn (app : App σ) (s : Tethered σ) (i : Nat) (l : Leash) (actions : List Traffic.Action) : Option (Tethered σ) :=
  (Traffic.run app s.traffic actions).map fun traffic =>
    { s with traffic, tokens :=
        if traffic.flights[i]?.any (·.state.cancelled) then s.tokens.cancel l.own else s.tokens }

/-- One step of the receiver. -/
def receiver (app : App σ) (s : Tethered σ) (a : Traffic.Action) : Option (Tethered σ) :=
  (Traffic.step app s.traffic a).map fun traffic => { s with traffic }

def step (app : App σ) (s : Tethered σ) : Action → Option (Tethered σ)
  | .create => some { s with tokens := s.tokens.create }
  | .child t => if t < s.tokens.count then some { s with tokens := s.tokens.child t } else none
  | .cancel t => if t < s.tokens.count then some { s with tokens := s.tokens.cancel t } else none
  | .dispatch r arrived parent =>
    if parent < s.tokens.count then
      (Traffic.step app s.traffic (.arrive r arrived)).map fun traffic =>
        { traffic, tokens := s.tokens.child parent, leashes := s.leashes ++ [⟨parent, s.tokens.count⟩] }
    else none
  | .advance i => (s.leashes[i]?).bind fun l => s.turn app i l (s.heard l i ++ [.advance i])
  | .giveUp i => (s.leashes[i]?).bind fun l => s.turn app i l [.giveUp i]
  | .tryReceive => s.receiver app .tryReceive
  | .receive => s.receiver app .receive
  | .dropReceiver => s.receiver app .dropReceiver

/-- What there is after some actions, if all of them are possible. -/
def run (app : App σ) (s : Tethered σ) : List Action → Option (Tethered σ)
  | [] => some s
  | a :: rest => (step app s a).bind fun s' => run app s' rest

end Tethered

/-! ## Turns -/

/-- The flight that has been told whether its token is cancelled. -/
def Flight.hearing (f : Flight σ) (cancelled : Bool) : Flight σ := { f with cancelled := f.cancelled || cancelled }

/-- A request has gone on, and what its work has seen meanwhile, if anything, says of its cancellation what `cancelled`
says. -/
structure Flight.Proceeds (f g : Flight σ) (cancelled : Bool) : Prop where
  flag : g.cancelled = true → f.cancelled = true
  kept : f.state.cancelled = true → g.state.cancelled = true
  ended : g.isOver = true → g.state.cancelled = true
  sees : ∀ v, g.seen = f.seen ++ [v] → v.cancelled = cancelled

theorem Flight.Proceeds.unseeing {f g : Flight σ} {cancelled : Bool}
    (flag : g.cancelled = true → f.cancelled = true) (seen : g.seen = f.seen)
    (kept : f.state.cancelled = true → g.state.cancelled = true)
    (ended : g.isOver = true → g.state.cancelled = true) : f.Proceeds g cancelled := by
  refine ⟨flag, kept, ended, fun v hv => ?_⟩
  rw [seen] at hv
  simp at hv

namespace Traffic

section
variable {app : App σ} {s s' : Traffic σ} {i : Nat} {f : Flight σ}

theorem proceeds_work {t : Task σ Ending} (h : s.work i f t = some s') :
    ∃ g, s'.flights = s.flights.set i g ∧ f.Proceeds g (s.world f).view.cancelled := by
  cases t with
  | done ending =>
    cases ending with
    | respond res =>
      simp only [work, Option.some.injEq] at h
      subst h
      exact ⟨f.tell res [], rfl, .unseeing id rfl id (by simp [Flight.isOver, Flight.tell])⟩
    | shutdown e =>
      simp only [work, Option.map_eq_some_iff] at h
      obtain ⟨session, -, rfl⟩ := h
      exact ⟨_, rfl, .unseeing id rfl id (by simp [Flight.isOver])⟩
  | panicked p =>
    simp only [work, Option.some.injEq] at h
    subst h
    exact ⟨f.finish (.panicked p), rfl, .unseeing id rfl (fun _ => rfl) fun _ => rfl⟩
  | step | pause | await =>
    simp only [work, Option.map_eq_some_iff] at h
    obtain ⟨⟨t', w⟩, hmove, rfl⟩ := h
    refine ⟨_, rfl, id, fun cancelled => ?_, by simp [Flight.isOver], fun v hv => ?_⟩
    · rw [(Task.effects_move hmove).1]
      exact (RequestState.through_cancelled _ _).mpr (.inl cancelled)
    · simp at hv
      rw [← hv]

theorem proceeds_advance (hf : s.flights[i]? = some f) (h : s.advance i f = some s') :
    ∃ g, s'.flights = s.flights.set i g ∧ f.Proceeds g (s.world f).view.cancelled := by
  have stays : s.flights = s.flights.set i f := by
    obtain ⟨hi, rfl⟩ := List.getElem?_eq_some_iff.mp hf
    exact (List.set_getElem_self hi).symm
  unfold advance at h
  split at h
  · exact proceeds_work h
  · next hstage =>
    simp only [signal] at h
    split at h
    · cases h
    split at h
    · cases h
    split at h
    · rw [Option.some.injEq] at h
      subst h
      exact ⟨f.tell unavailable _, rfl, .unseeing id rfl id (by simp [Flight.isOver, Flight.tell])⟩
    · simp only [Option.map_eq_some_iff] at h
      obtain ⟨session, -, rfl⟩ := h
      exact ⟨f, stays, .unseeing id rfl id (by simp [Flight.isOver, hstage])⟩
  · next res events _ =>
    rw [Option.some.injEq] at h
    subst h
    cases events with
    | nil => exact ⟨_, rfl, .unseeing id rfl (fun _ => rfl) fun _ => rfl⟩
    | cons e events => exact ⟨_, rfl, .unseeing id rfl id (by simp [Flight.isOver])⟩
  · cases h

end

end Traffic

namespace Tethered

section
variable {app : App σ} {s s' : Tethered σ} {i : Nat} {l : Leash}

structure Turned (s s' : Tethered σ) (i : Nat) (l : Leash) (f g : Flight σ) : Prop where
  before : s.traffic.flights[i]? = some f
  flights : s'.traffic.flights = s.traffic.flights.set i g
  leashes : s'.leashes = s.leashes
  tokens : s'.tokens = if g.state.cancelled then s.tokens.cancel l.own else s.tokens
  proceeds : (f.hearing (s.tokens.isCancelled l.own)).Proceeds g
    (f.state.cancelled || (f.cancelled || s.tokens.isCancelled l.own))

/-- A request that goes on has been told whether its token is cancelled. -/
theorem run_heard {traffic : Traffic σ}
    (h : Traffic.run app s.traffic (s.heard l i ++ [.advance i]) = some traffic) :
    ∃ f, s.traffic.flights[i]? = some f ∧ (s.traffic.set i (f.hearing (s.tokens.isCancelled l.own))).advance i
      (f.hearing (s.tokens.isCancelled l.own)) = some traffic := by
  cases hf : s.traffic.flights[i]? with
  | none =>
    unfold heard at h
    split at h <;> simp [Traffic.run, Traffic.step, hf] at h
  | some f =>
    refine ⟨f, rfl, ?_⟩
    cases hc : s.tokens.isCancelled l.own with
    | false =>
      have same : s.traffic.set i f = s.traffic := Traffic.changed_self hf
      simpa [heard, hc, Traffic.run, Traffic.step, hf, Flight.hearing, same] using h
    | true =>
      have told := Traffic.getElem?_set_flight (g := f.hearing true) hf
      simp only [Flight.hearing, Bool.or_true] at told ⊢
      simpa [heard, hc, Traffic.run, Traffic.step, hf, told] using h

theorem turned_of_turn {actions : List Traffic.Action} (h : s.turn app i l actions = some s') {f g : Flight σ}
    (before : s.traffic.flights[i]? = some f) (flights : s'.traffic.flights = s.traffic.flights.set i g)
    (proceeds : (f.hearing (s.tokens.isCancelled l.own)).Proceeds g
      (f.state.cancelled || (f.cancelled || s.tokens.isCancelled l.own))) : Turned s s' i l f g := by
  simp only [turn, Option.map_eq_some_iff] at h
  obtain ⟨traffic, -, rfl⟩ := h
  have after : (s.traffic.flights.set i g)[i]? = some g :=
    List.getElem?_set_self (List.getElem?_eq_some_iff.mp before).1
  refine ⟨before, flights, rfl, ?_, proceeds⟩
  simp only at flights
  simp only [flights, after, Option.any_some]

theorem turned_advance (hl : s.leashes[i]? = some l) (h : step app s (.advance i) = some s') :
    ∃ f g, Turned s s' i l f g := by
  simp only [step, hl, Option.bind_some] at h
  obtain ⟨traffic, ran, after⟩ := Option.map_eq_some_iff.mp h
  obtain ⟨f, hf, advanced⟩ := run_heard ran
  obtain ⟨g, flights, proceeds⟩ := Traffic.proceeds_advance (Traffic.getElem?_set_flight hf) advanced
  have flights' : s'.traffic.flights = s.traffic.flights.set i g := by
    rw [← after, flights, Traffic.set, List.set_set]
  exact ⟨f, g, turned_of_turn h hf flights' proceeds⟩

theorem turned_giveUp (hl : s.leashes[i]? = some l) (h : step app s (.giveUp i) = some s') :
    ∃ f g, Turned s s' i l f g := by
  simp only [step, hl, Option.bind_some] at h
  obtain ⟨traffic, ran, after⟩ := Option.map_eq_some_iff.mp h
  simp only [Traffic.run, Traffic.step] at ran
  split at ran
  · cases ran
  next f hf =>
  split at ran
  · split at ran
    · rw [Option.bind_some, Option.some.injEq] at ran
      refine ⟨f, f.finish .abandoned, turned_of_turn h hf ?_ (.unseeing ?_ rfl (fun _ => rfl) fun _ => rfl)⟩
      · rw [← after, ← ran]
        rfl
      · intro cancelled
        have before : f.cancelled = true := cancelled
        rw [Flight.hearing, before, Bool.true_or]
    · cases ran
  · cases ran

end

section
variable {app : App σ} {s s' : Tethered σ}

/-- What happens to the requests in a step could happen to them without tokens. -/
theorem step_traffic {a : Action} (h : step app s a = some s') :
    ∃ moves, Traffic.run app s.traffic moves = some s'.traffic := by
  have turned : ∀ i l moves, s.turn app i l moves = some s' → Traffic.run app s.traffic moves = some s'.traffic := by
    intro i l moves h
    obtain ⟨traffic, ran, rfl⟩ := Option.map_eq_some_iff.mp h
    exact ran
  have received : ∀ b, s.receiver app b = some s' → Traffic.run app s.traffic [b] = some s'.traffic := by
    intro b h
    obtain ⟨traffic, stepped, rfl⟩ := Option.map_eq_some_iff.mp h
    simp only [Traffic.run, stepped, Option.bind_some]
  cases a with
  | create =>
    simp only [step, Option.some.injEq] at h
    exact ⟨[], h ▸ rfl⟩
  | child t | cancel t =>
    simp only [step] at h
    split at h
    · exact ⟨[], Option.some.inj h ▸ rfl⟩
    · cases h
  | dispatch r arrived parent =>
    simp only [step] at h
    split at h
    · exact ⟨[.arrive r arrived], Option.some.inj h ▸ rfl⟩
    · cases h
  | advance i =>
    obtain ⟨l, -, h⟩ := Option.bind_eq_some_iff.mp h
    exact ⟨_, turned i l _ h⟩
  | giveUp i =>
    obtain ⟨l, -, h⟩ := Option.bind_eq_some_iff.mp h
    exact ⟨_, turned i l _ h⟩
  | tryReceive | receive | dropReceiver => exact ⟨_, received _ h⟩

theorem run_traffic {as : List Action} (h : run app s as = some s') :
    ∃ moves, Traffic.run app s.traffic moves = some s'.traffic := by
  induction as generalizing s with
  | nil =>
    rw [run, Option.some.injEq] at h
    exact ⟨[], h ▸ rfl⟩
  | cons a as ih =>
    rw [run, Option.bind_eq_some_iff] at h
    obtain ⟨s₁, h₁, h₂⟩ := h
    obtain ⟨first, ran₁⟩ := step_traffic h₁
    obtain ⟨rest, ran₂⟩ := ih h₂
    exact ⟨first ++ rest, by rw [Traffic.run_append, ran₁, Option.bind_some, ran₂]⟩

end

end Tethered

/-! ## Leashes -/

/-- The request's own token is a child of the one that it was given. -/
structure Leash.Made (ts : Tokens) (l : Leash) : Prop where
  lt : l.own < ts.count
  above : ts.above l.own = l.parent :: ts.above l.parent

section
variable {ts ts' : Tokens} {l : Leash} {direct : List Nat} {f : Flight σ} {t : Nat}

theorem Leash.Made.parent_lt (made : l.Made ts) : l.parent < l.own :=
  ts.above_lt (by rw [made.above]; exact List.mem_cons_self)

/-- Own tokens hang on themselves and on what the given tokens hang on. -/
theorem Leash.Made.hangs (made : l.Made ts) : ts.Hangs l.own t ↔ l.own = t ∨ ts.Hangs l.parent t := by
  have parent : l.parent < ts.count := Nat.lt_trans made.parent_lt made.lt
  simp only [Tokens.Hangs, made.above, List.mem_cons, made.lt, parent, true_and, eq_comm (a := t)]

theorem Leash.Made.cancel (made : l.Made ts) (t : Nat) : l.Made (ts.cancel t) :=
  ⟨by rw [Tokens.count_cancel]; exact made.lt, by rw [Tokens.above_cancel, Tokens.above_cancel]; exact made.above⟩

theorem Leash.Made.more (made : l.Made ts) (more : ts.More ts') : l.Made ts' := by
  refine ⟨Nat.lt_of_lt_of_le made.lt more.count, ?_⟩
  rw [more.above _ made.lt, more.above _ (Nat.lt_trans made.parent_lt made.lt), made.above]

/-- What the token of a request tells, where somebody has cancelled the tokens in `direct`. -/
structure Tells (direct : List Nat) (ts : Tokens) (f : Flight σ) (l : Leash) : Prop where
  cancelled : ts.isCancelled l.own = true ↔
    ts.isCancelled l.parent = true ∨ l.own ∈ direct ∨ f.state.cancelled = true
  flag : f.cancelled = true → ts.isCancelled l.own = true
  ended : f.isOver = true → f.state.cancelled = true

theorem Tells.more (tells : Tells direct ts f l) (made : l.Made ts) (more : ts.More ts') :
    Tells direct ts' f l := by
  have own := more.isCancelled _ made.lt
  have parent := more.isCancelled _ (Nat.lt_trans made.parent_lt made.lt)
  exact ⟨by rw [own, parent]; exact tells.cancelled, by rw [own]; exact tells.flag, tells.ended⟩

theorem Tells.cancel (tells : Tells direct ts f l) (made : l.Made ts) (t : Nat) :
    Tells (t :: direct) (ts.cancel t) f l := by
  refine ⟨?_, fun h => (ts.isCancelled_cancel).mpr (.inl (tells.flag h)), tells.ended⟩
  rw [ts.isCancelled_cancel, ts.isCancelled_cancel, made.hangs, tells.cancelled, List.mem_cons]
  grind

theorem Tells.cancel_other (tells : Tells direct ts f l) (made : l.Made ts) (other : l.own ≠ t) :
    Tells direct (ts.cancel t) f l := by
  refine ⟨?_, fun h => (ts.isCancelled_cancel).mpr (.inl (tells.flag h)), tells.ended⟩
  rw [ts.isCancelled_cancel, ts.isCancelled_cancel, made.hangs, tells.cancelled]
  grind

/-- The request itself has gone on, and has cancelled its token if it has cancelled its context. -/
theorem Tells.proceeds (tells : Tells direct ts f l) (made : l.Made ts) {g : Flight σ} {cancelled : Bool}
    (proceeds : (f.hearing (ts.isCancelled l.own)).Proceeds g cancelled) :
    Tells direct (if g.state.cancelled then ts.cancel l.own else ts) g l := by
  have flag : g.cancelled = true → ts.isCancelled l.own = true := by
    intro h
    rcases Bool.or_eq_true_iff.mp (proceeds.flag h) with h | h
    · exact tells.flag h
    · exact h
  split
  · next cancelled =>
    have self := ts.isCancelled_cancel_self made.lt
    exact ⟨iff_of_true self (.inr (.inr cancelled)), fun _ => self, proceeds.ended⟩
  · next goes =>
    have before : ¬ f.state.cancelled = true := mt proceeds.kept goes
    refine ⟨?_, flag, proceeds.ended⟩
    rw [tells.cancelled]
    simp only [before, goes]

end

/-! ## The invariant -/

namespace Tethered

/-- The token that an action cancels. -/
def Action.cancelled? : Action → Option Nat
  | .cancel t => some t
  | _ => none

structure Held (direct : List Nat) (s : Tethered σ) : Prop where
  length : s.leashes.length = s.traffic.flights.length
  made : ∀ l ∈ s.leashes, l.Made s.tokens
  apart : (s.leashes.map (·.own)).Nodup
  known : ∀ t ∈ direct, t < s.tokens.count
  tells : ∀ (i : Nat) (f : Flight σ) (l : Leash), s.traffic.flights[i]? = some f → s.leashes[i]? = some l →
    Tells direct s.tokens f l

theorem held_init (service : σ) : Held [] { traffic := { shared := { service } } } :=
  ⟨rfl, by simp, by simp, by simp, by simp⟩

section
variable {app : App σ} {s s' : Tethered σ} {direct : List Nat} {i : Nat} {l : Leash} {f g : Flight σ}

/-- No two requests have one token. -/
theorem Held.own_ne (H : Held direct s) {i j : Nat} {l m : Leash} (hl : s.leashes[i]? = some l)
    (hm : s.leashes[j]? = some m) (other : j ≠ i) : m.own ≠ l.own := by
  intro own
  have hj : j < (s.leashes.map (·.own)).length := by
    rw [List.length_map]
    exact (List.getElem?_eq_some_iff.mp hm).1
  refine other ((List.getElem?_inj hj H.apart).mp ?_)
  rw [List.getElem?_map, List.getElem?_map, hl, hm, Option.map_some, Option.map_some, own]

/-- Tokens more change nothing for the requests. -/
theorem Held.more (H : Held direct s) {ts : Tokens} (more : s.tokens.More ts) :
    Held direct { s with tokens := ts } where
  length := H.length
  made l hl := (H.made l hl).more more
  apart := H.apart
  known t ht := Nat.lt_of_lt_of_le (H.known t ht) more.count
  tells i f l hf hl := (H.tells i f l hf hl).more (H.made l (List.mem_of_getElem? hl)) more

theorem Held.cancel (H : Held direct s) {t : Nat} (ht : t < s.tokens.count) :
    Held (t :: direct) { s with tokens := s.tokens.cancel t } where
  length := H.length
  made l hl := (H.made l hl).cancel t
  apart := H.apart
  known u hu := by
    rw [Tokens.count_cancel]
    rcases List.mem_cons.mp hu with rfl | hu
    · exact ht
    · exact H.known u hu
  tells i f l hf hl := (H.tells i f l hf hl).cancel (H.made l (List.mem_of_getElem? hl)) t

theorem Held.receiver (H : Held direct s) {traffic : Traffic σ} (flights : traffic.flights = s.traffic.flights) :
    Held direct { s with traffic } where
  length := H.length.trans (congrArg List.length flights.symm)
  made := H.made
  apart := H.apart
  known := H.known
  tells i f l hf hl := H.tells i f l (flights ▸ hf) hl

/-- A request more has a token that nobody has cancelled but with the one that it was given. -/
theorem Held.dispatch (H : Held direct s) {traffic : Traffic σ} {new : Flight σ} {parent : Nat}
    (flights : traffic.flights = s.traffic.flights ++ [new])
    (begins : new.cancelled = false ∧ new.state.cancelled = false ∧ new.isOver = false)
    (hp : parent < s.tokens.count) :
    Held direct
      { traffic, tokens := s.tokens.child parent, leashes := s.leashes ++ [⟨parent, s.tokens.count⟩] } := by
  have more := s.tokens.more_child hp
  have old := H.more more
  have own : (s.tokens.child parent).isCancelled s.tokens.count = s.tokens.isCancelled parent := by
    rw [s.tokens.isCancelled_child hp, if_pos rfl]
  refine ⟨?_, fun l hl => ?_, ?_, old.known, fun i f l hf hl => ?_⟩
  · simp [H.length, flights]
  · rcases List.mem_append.mp hl with hl | hl
    · exact old.made l hl
    · rw [List.mem_singleton.mp hl]
      refine ⟨by simp, ?_⟩
      rw [s.tokens.above_child hp, if_pos rfl, more.above parent hp]
  · rw [List.map_append, List.nodup_append]
    refine ⟨H.apart, by simp, fun a ha b hb => ?_⟩
    obtain ⟨l, hl, rfl⟩ := List.mem_map.mp ha
    rw [List.map_singleton, List.mem_singleton] at hb
    exact hb ▸ Nat.ne_of_lt (H.made l hl).lt
  · simp only [flights] at hf
    rcases Nat.lt_or_ge i s.leashes.length with hi | hi
    · rw [List.getElem?_append_left hi] at hl
      rw [List.getElem?_append_left (H.length ▸ hi)] at hf
      exact old.tells i f l hf hl
    · rw [List.getElem?_append_right hi, List.getElem?_singleton] at hl
      rw [List.getElem?_append_right (H.length ▸ hi), List.getElem?_singleton] at hf
      split at hl
      · split at hf
        · cases hl
          cases hf
          refine ⟨?_, by simp [begins.1], by simp [begins.2.2]⟩
          have undone : s.tokens.count ∉ direct := fun h => Nat.lt_irrefl _ (H.known _ h)
          simp [own, more.isCancelled parent hp, undone, begins.2.1]
        · cases hf
      · cases hl

theorem Held.turned (H : Held direct s) (hl : s.leashes[i]? = some l)
    (turned : Turned s s' i l f g) : Held direct s' := by
  obtain ⟨before, flights, leashes, tokens, proceeds⟩ := turned
  have made := H.made l (List.mem_of_getElem? hl)
  have count : s'.tokens.count = s.tokens.count := by
    rw [tokens]
    split
    · exact s.tokens.count_cancel
    · rfl
  refine ⟨?_, fun m hm => ?_, ?_, ?_, fun j h m hj hm => ?_⟩
  · rw [leashes, flights, List.length_set, H.length]
  · rw [leashes] at hm
    rw [tokens]
    split
    · exact (H.made m hm).cancel l.own
    · exact H.made m hm
  · rw [leashes]
    exact H.apart
  · rw [count]
    exact H.known
  · rw [leashes] at hm
    rw [flights] at hj
    by_cases same : i = j
    · subst same
      rw [List.getElem?_set_self (List.getElem?_eq_some_iff.mp before).1] at hj
      obtain rfl : g = h := Option.some.inj hj
      obtain rfl : l = m := Option.some.inj (hl.symm.trans hm)
      rw [tokens]
      exact (H.tells i f l before hl).proceeds made proceeds
    · rw [List.getElem?_set_ne same] at hj
      have tells := H.tells j h m hj hm
      rw [tokens]
      split
      · exact tells.cancel_other (H.made m (List.mem_of_getElem? hm)) (H.own_ne hl hm (Ne.symm same))
      · exact tells

/-- Every step keeps the invariant. -/
theorem Held.step (H : Held direct s) {a : Action} (h : step app s a = some s') :
    Held (a.cancelled?.toList ++ direct) s' := by
  have receiver : ∀ a : Traffic.Action, s.receiver app a = some s' →
      (∀ traffic, Traffic.step app s.traffic a = some traffic → traffic.flights = s.traffic.flights) →
      Held direct s' := by
    intro a h flights
    obtain ⟨traffic, stepped, rfl⟩ := Option.map_eq_some_iff.mp h
    exact H.receiver (flights traffic stepped)
  have session : ∀ (a : Channel.Action) (traffic : Traffic σ), s.traffic.receiver a = some traffic →
      traffic.flights = s.traffic.flights := by
    intro a traffic h
    obtain ⟨session, -, rfl⟩ := Option.map_eq_some_iff.mp h
    rfl
  cases a with
  | create =>
    simp only [Tethered.step, Option.some.injEq] at h
    exact h ▸ H.more s.tokens.more_create
  | child t =>
    simp only [Tethered.step] at h
    split at h
    · next ht => exact Option.some.inj h ▸ H.more (s.tokens.more_child ht)
    · cases h
  | cancel t =>
    simp only [Tethered.step] at h
    split at h
    · next ht => exact Option.some.inj h ▸ H.cancel ht
    · cases h
  | dispatch r arrived parent =>
    simp only [Tethered.step] at h
    split at h
    · next hp => exact Option.some.inj h ▸ H.dispatch rfl ⟨rfl, rfl, rfl⟩ hp
    · cases h
  | advance i =>
    cases hl : s.leashes[i]? with
    | none => simp [Tethered.step, hl] at h
    | some l =>
      obtain ⟨f, g, turned⟩ := turned_advance hl h
      exact H.turned hl turned
  | giveUp i =>
    cases hl : s.leashes[i]? with
    | none => simp [Tethered.step, hl] at h
    | some l =>
      obtain ⟨f, g, turned⟩ := turned_giveUp hl h
      exact H.turned hl turned
  | tryReceive => exact receiver _ h (session _)
  | receive => exact receiver _ h (session _)
  | dropReceiver => exact receiver _ h (session _)

theorem held_run {as : List Action} (H : Held direct s) (h : run app s as = some s') :
    ∃ cancelled, (∀ t, t ∈ cancelled ↔ t ∈ direct ∨ .cancel t ∈ as) ∧ Held cancelled s' := by
  induction as generalizing s direct with
  | nil =>
    rw [run, Option.some.injEq] at h
    exact ⟨direct, by simp, h ▸ H⟩
  | cons a as ih =>
    rw [run, Option.bind_eq_some_iff] at h
    obtain ⟨s₁, h₁, h₂⟩ := h
    obtain ⟨cancelled, iff, H'⟩ := ih (H.step h₁) h₂
    refine ⟨cancelled, fun t => ?_, H'⟩
    rw [iff]
    cases a <;> simp [Action.cancelled?, or_assoc, or_left_comm]

/-! ## Who is cancelled when -/

/-- What a turn of a request, or its end, does to tokens. -/
structure Leaves (s s' : Tethered σ) (i : Nat) (l : Leash) : Prop where
  leashes : s'.leashes = s.leashes
  /-- The token that the request was given stays as it was, -/
  parent : s'.tokens.isCancelled l.parent = s.tokens.isCancelled l.parent
  /-- and so do the tokens of other requests, but of those that were given one that hangs on its own. -/
  others : ∀ (j : Nat) (m : Leash), j ≠ i → s.leashes[j]? = some m → ¬ s.tokens.Hangs m.parent l.own →
    s'.tokens.isCancelled m.own = s.tokens.isCancelled m.own
  /-- In fact every token does that does not hang on its own. -/
  apart : ∀ u, ¬ s.tokens.Hangs u l.own → s'.tokens.isCancelled u = s.tokens.isCancelled u
  /-- If the request is over then, all that hang on its own are cancelled. -/
  ended : ∀ g, s'.traffic.flights[i]? = some g → g.isOver = true → ∀ u, s.tokens.Hangs u l.own →
    s'.tokens.isCancelled u = true

theorem Held.leaves (H : Held direct s) (hl : s.leashes[i]? = some l) (turned : Turned s s' i l f g) :
    Leaves s s' i l := by
  have made := H.made l (List.mem_of_getElem? hl)
  have apart : ∀ u, ¬ s.tokens.Hangs u l.own → s'.tokens.isCancelled u = s.tokens.isCancelled u := by
    intro u away
    rw [turned.tokens]
    split
    · exact s.tokens.isCancelled_cancel_other away
    · rfl
  refine ⟨turned.leashes, apart _ (s.tokens.not_hangs_of_lt made.parent_lt), fun j m other hm away => apart _ ?_,
    apart, fun x hx ended u hangs => ?_⟩
  · rw [(H.made m (List.mem_of_getElem? hm)).hangs]
    rintro (own | hangs)
    · exact H.own_ne hl hm other own
    · exact away hangs
  · rw [turned.flights, List.getElem?_set_self (List.getElem?_eq_some_iff.mp turned.before).1] at hx
    obtain rfl : g = x := Option.some.inj hx
    rw [turned.tokens, if_pos (turned.proceeds.ended ended)]
    exact s.tokens.isCancelled_cancel.mpr (.inr hangs)

/-- When the contexts of requests are cancelled, after these actions. -/
structure CancelledWhenOver (app : App σ) (actions : List Action) (s : Tethered σ) : Prop where
  /-- Every request has a token. -/
  leashed : s.leashes.length = s.traffic.flights.length
  /-- While its work goes on, a request's token is cancelled if and only if the one that it was given is, or it has been
  cancelled itself, by somebody or by the work. -/
  working : ∀ (i : Nat) (f : Flight σ) (l : Leash), s.traffic.flights[i]? = some f → s.leashes[i]? = some l →
    ∀ t, f.stage = .working t → (s.tokens.isCancelled l.own = true ↔ s.tokens.isCancelled l.parent = true ∨
      .cancel l.own ∈ actions ∨ .cancel ∈ (app.work f.context f.incoming).effects f.seen)
  /-- And that is what the work sees next. -/
  sees : ∀ (i : Nat) (f g : Flight σ) (l : Leash) (s' : Tethered σ), s.traffic.flights[i]? = some f →
    s.leashes[i]? = some l → step app s (.advance i) = some s' → s'.traffic.flights[i]? = some g →
    ∀ v, g.seen = f.seen ++ [v] → v.cancelled = s.tokens.isCancelled l.own
  /-- Once a request is over its token is cancelled, whether it was answered, has panicked or was given up. -/
  ended : ∀ (i : Nat) (f : Flight σ) (l : Leash), s.traffic.flights[i]? = some f → s.leashes[i]? = some l →
    f.isOver = true → s.tokens.isCancelled l.own = true
  leaves : ∀ (i : Nat) (l : Leash) (a : Action) (s' : Tethered σ), a = .advance i ∨ a = .giveUp i →
    s.leashes[i]? = some l → step app s a = some s' → Leaves s s' i l

end

/-- In every run, with any tokens given to the requests and any of them cancelled by anybody at any time: while a request
is worked on its context is cancelled just if the token that it was given is or somebody has cancelled the context itself;
once it is over its context is cancelled; and what does not hang on its own token it never cancels. -/
theorem cancelled_when_over (app : App σ) (service : σ) (actions : List Action) (s : Tethered σ)
    (h : run app { traffic := { shared := { service } } } actions = some s) : CancelledWhenOver app actions s := by
  obtain ⟨cancelled, iff, H⟩ := held_run (held_init service) h
  obtain ⟨moves, ran⟩ := run_traffic h
  have kept := Traffic.kept_run (Traffic.kept_init app service) ran
  refine ⟨H.length, fun i f l hf hl t hstage => ?_, fun i f g l s' hf hl hs hg v hv => ?_,
    fun i f l hf hl ended => ?_, fun i l a s' turns hl hs => ?_⟩
  · have somebody : l.own ∈ cancelled ↔ .cancel l.own ∈ actions := by simpa using iff l.own
    have itself : f.state.cancelled = true ↔ .cancel ∈ (app.work f.context f.incoming).effects f.seen := by
      rw [((kept.own f (List.mem_of_getElem? hf)).working t hstage).2, RequestState.through_cancelled]
      exact or_iff_right Bool.false_ne_true
    rw [(H.tells i f l hf hl).cancelled, somebody, itself]
  · obtain ⟨f', g', turned⟩ := turned_advance hl hs
    obtain rfl : f = f' := Option.some.inj (hf.symm.trans turned.before)
    rw [turned.flights, List.getElem?_set_self (List.getElem?_eq_some_iff.mp hf).1] at hg
    obtain rfl : g' = g := Option.some.inj hg
    rw [turned.proceeds.sees v hv]
    have tells := H.tells i f l hf hl
    have flags : f.state.cancelled = true ∨ f.cancelled = true → s.tokens.isCancelled l.own = true
      | .inl cancelled => tells.cancelled.mpr (.inr (.inr cancelled))
      | .inr cancelled => tells.flag cancelled
    rw [Bool.eq_iff_iff, Bool.or_eq_true, Bool.or_eq_true, ← or_assoc]
    exact ⟨fun h => h.elim flags id, .inr⟩
  · have tells := H.tells i f l hf hl
    exact tells.cancelled.mpr (.inr (.inr (tells.ended ended)))
  · rcases turns with rfl | rfl
    · obtain ⟨f, g, turned⟩ := turned_advance hl hs
      exact H.leaves hl turned
    · obtain ⟨f, g, turned⟩ := turned_giveUp hl hs
      exact H.leaves hl turned

def waitingApp : App Unit := (({} : App Unit).handle .get "" "wait" fun _ _ => .pause (.done (.ok {}))).2

def waitingRequest : Incoming := { target := { origin := "", path := "/wait", query := none } }

def sharedRun : List Action :=
  [.create, .dispatch waitingRequest .epoch 0, .dispatch waitingRequest .epoch 0, .advance 1] ++
    List.replicate 5 (.advance 0)

/-- The one that is over is cancelled; the token that they share, and the other request, are not. -/
theorem cancelled_when_over_shared : ∃ s,
    run waitingApp { traffic := { shared := { service := () } } } sharedRun = some s ∧
      [0, 1, 2].map s.tokens.isCancelled = [false, true, false] ∧ CancelledWhenOver waitingApp sharedRun s := by
  have shown : (run waitingApp { traffic := { shared := { service := () } } } sharedRun).map
      (fun s => [0, 1, 2].map s.tokens.isCancelled) = some [false, true, false] := by decide +kernel
  obtain ⟨s, ran, tokens⟩ := Option.map_eq_some_iff.mp shown
  exact ⟨s, ran, tokens, cancelled_when_over waitingApp () sharedRun s ran⟩

end Tethered

end App

end JsonService
