import JsonService.Proofs.App.Concurrent

/-!
# What a step of the traffic can be

Many kinds of actions come down to four: a request more, something about the channel, a move of the work of one request,
or anything else that a request does, which leaves its work where it was.

**Result.**
* `step_turn`: every step is one of them. What one step preserves is proved by these four cases.
-/
namespace JsonService

variable {σ : Type}

namespace App

/-! ## Steps -/

/-- The flight has gone on without a move of its work. -/
structure Flight.Stays (f g : Flight σ) : Prop where
  incoming : g.incoming = f.incoming
  context : g.context = f.context
  seen : g.seen = f.seen
  cancelled : g.cancelled = false → f.cancelled = false
  /-- If its work goes on, it is where it was. -/
  working : ∀ t, g.stage = .working t → f.stage = .working t ∧ g.state = f.state

theorem Flight.Stays.of_over {f g : Flight σ}
    (kept : g.incoming = f.incoming ∧ g.context = f.context ∧ g.seen = f.seen ∧ g.cancelled = f.cancelled)
    (ended : ∀ t, g.stage ≠ .working t) : f.Stays g := by
  obtain ⟨incoming, context, seen, cancelled⟩ := kept
  exact ⟨incoming, context, seen, fun h => cancelled ▸ h, fun t working => absurd working (ended t)⟩

namespace Traffic

/-- One step of the traffic: a request more, something about the channel, a move of the work of one flight, or anything
else that a flight does. -/
inductive Turn (app : App σ) (s : Traffic σ) : Traffic σ → Prop
  | arrive (contexts : Nat) (ctx : Context) (r : Incoming) : Turn app s { s with contexts, flights := s.flights ++
      [{ incoming := r, context := ctx, stage := .working (app.work ctx r) }] }
  | channel (session : Channel.Session) : Turn app s { s with session }
  | move {i : Nat} {f : Flight σ} {t t' : Task σ Ending} {w : World σ} : s.flights[i]? = some f →
      f.stage = .working t → t.move (s.world f) = some (t', w) →
      Turn app s ({ s with shared := w.shared }.set i
        { f with state := w.request, seen := f.seen ++ [(s.world f).view], stage := .working t' })
  | put {i : Nat} {f g : Flight σ} {events : List Log.Event} (session : Channel.Session) : s.flights[i]? = some f →
      f.Stays g → g.told = f.told ++ events →
      Turn app s ({ s with session, shared.log := s.shared.log ++ events }.set i g)

section
variable {app : App σ} {s s' : Traffic σ} {i : Nat} {f g : Flight σ} (hf : s.flights[i]? = some f)
include hf

theorem turn_quiet (session : Channel.Session) (stays : f.Stays g) (told : g.told = f.told) :
    Turn app s ({ s with session }.set i g) := by
  have turn : Turn app s ({ s with session, shared.log := s.shared.log ++ [] }.set i g) :=
    .put session hf stays (by rw [told, List.append_nil])
  rwa [List.append_nil] at turn

theorem turn_work {t : Task σ Ending} (hstage : f.stage = .working t) (h : s.work i f t = some s') :
    Turn app s s' := by
  cases t with
  | done ending =>
    cases ending with
    | respond res =>
      simp only [work, Option.some.injEq] at h
      exact h ▸ turn_quiet hf s.session (.of_over ⟨rfl, rfl, rfl, rfl⟩ (by simp [Flight.tell])) rfl
    | shutdown e =>
      simp only [work, Option.map_eq_some_iff] at h
      obtain ⟨session, -, rfl⟩ := h
      exact turn_quiet hf session (.of_over ⟨rfl, rfl, rfl, rfl⟩ (by simp)) rfl
  | panicked p =>
    simp only [work, Option.some.injEq] at h
    exact h ▸ turn_quiet hf s.session (.of_over ⟨rfl, rfl, rfl, rfl⟩ (by simp [Flight.finish])) rfl
  | step | pause | await =>
    simp only [work, Option.map_eq_some_iff] at h
    obtain ⟨⟨t', w⟩, hmove, rfl⟩ := h
    exact .move hf hstage hmove

theorem turn_advance (h : s.advance i f = some s') : Turn app s s' := by
  unfold advance at h
  split at h
  · next hstage => exact turn_work hf hstage h
  · simp only [signal] at h
    split at h
    · cases h
    split at h
    · cases h
    split at h
    · rw [Option.some.injEq] at h
      exact h ▸ turn_quiet hf s.session (.of_over ⟨rfl, rfl, rfl, rfl⟩ (by simp [Flight.tell])) rfl
    · simp only [Option.map_eq_some_iff] at h
      obtain ⟨session, -, rfl⟩ := h
      exact .channel session
  · next res events _ =>
    rw [Option.some.injEq] at h
    subst h
    cases events with
    | nil => exact turn_quiet hf s.session (.of_over ⟨rfl, rfl, rfl, rfl⟩ (by simp)) rfl
    | cons e events => exact .put s.session hf (.of_over ⟨rfl, rfl, rfl, rfl⟩ (by simp)) rfl
  · cases h

end

theorem step_turn {app : App σ} {s s' : Traffic σ} {a : Action} (h : step app s a = some s') : Turn app s s' := by
  have receiver : ∀ a : Channel.Action, s.receiver a = some s' → Turn app s s' := by
    intro a h
    simp only [Traffic.receiver, Option.map_eq_some_iff] at h
    obtain ⟨session, -, rfl⟩ := h
    exact .channel session
  cases a with
  | arrive r arrived =>
    simp only [step, Option.some.injEq] at h
    exact h ▸ .arrive _ _ r
  | advance i =>
    simp only [step] at h
    split at h
    · cases h
    · exact turn_advance ‹_› h
  | giveUp i =>
    simp only [step] at h
    split at h
    · cases h
    next f hf =>
    split at h
    · split at h
      · rw [Option.some.injEq] at h
        exact h ▸ turn_quiet hf s.session (.of_over ⟨rfl, rfl, rfl, rfl⟩ (by simp [Flight.finish])) rfl
      · cases h
    · cases h
  | cancel i =>
    simp only [step] at h
    split at h
    · cases h
    · next f hf =>
      rw [Option.some.injEq] at h
      exact h ▸ turn_quiet hf s.session ⟨rfl, rfl, rfl, by simp, fun _ h => ⟨h, rfl⟩⟩ rfl
  | tryReceive => exact receiver _ h
  | receive => exact receiver _ h
  | dropReceiver => exact receiver _ h

end Traffic

end App

end JsonService
