import JsonService.Proofs.App.Flights
import JsonService.Proofs.App.Turns
import JsonService.Proofs.Entries
import JsonService.Proofs.Layers.Always

/-!
# Requests and their own state

Of the state in which requests side by side work, the status and the cancellation of a request are its own, and all else
is shared. Here is what every step does to both.

**The invariant (`Kept`).** Every flight has had only views of its own state, unless whoever runs it has cancelled it.
The log has what the flights have logged at work and what they have told since, and nothing else. The counters have
their names in order and no name that was never counted.

**Results.**
* `Proper.ext`: such counters are known by their values.
* `Turn.kept`, `kept_run`: the invariant holds in every run.
-/
namespace JsonService

variable {σ α : Type}

/-! ## Counters -/

namespace Counters

/-- The names are in order, and each was counted. -/
structure Proper (c : Counters) : Prop where
  ascending : Entries.Ascending c
  counted : ∀ name, Entries.get? name c ≠ some 0

theorem Proper.increment {c : Counters} (h : c.Proper) (name : String) : (c.increment name).Proper := by
  refine ⟨h.ascending.insert _ _, fun k => ?_⟩
  rw [Counters.increment, Entries.get?_insert]
  split
  · simp
  · exact h.counted k

theorem Proper.ext {c c' : Counters} (h : c.Proper) (h' : c'.Proper) (same : ∀ name, c.get name = c'.get name) :
    c = c' := by
  refine h.ascending.ext h'.ascending fun k => ?_
  have value := same k
  have left := h.counted k
  have right := h'.counted k
  simp only [get] at value
  cases hk : Entries.get? k c <;> cases hk' : Entries.get? k c' <;> simp_all

end Counters

theorem Task.proper_move {t u : Task σ α} {w w' : World σ} (h : t.move w = some (u, w'))
    (proper : w.shared.counters.Proper) : w'.shared.counters.Proper := by
  cases t with
  | done | panicked => cases h
  | step effect next =>
    simp only [move, Option.some.injEq, Prod.mk.injEq] at h
    rw [← h.2]
    cases effect with
    | count name => exact proper.increment name
    | _ => exact proper
  | pause next =>
    simp only [move, Option.some.injEq, Prod.mk.injEq] at h
    exact h.2 ▸ proper
  | await ready next =>
    simp only [move] at h
    split at h
    · simp only [Option.some.injEq, Prod.mk.injEq] at h
      exact h.2 ▸ proper
    · cases h

namespace App

/-! ## The invariant -/

def Flight.logged (app : App σ) (f : Flight σ) : List Log.Event :=
  ((app.work f.context f.incoming).effects f.seen).flatMap Effect.logged

/-- The flight has seen its own state, unless whoever runs it has cancelled it. -/
structure Flight.Own (app : App σ) (f : Flight σ) : Prop where
  sees : f.cancelled = false → (app.work f.context f.incoming).Sees {} f.seen
  working : ∀ t, f.stage = .working t → (app.work f.context f.incoming).after f.seen = some t ∧
    f.state = RequestState.through {} ((app.work f.context f.incoming).effects f.seen)

namespace Traffic

structure Kept (app : App σ) (s : Traffic σ) : Prop where
  own : ∀ f ∈ s.flights, f.Own app
  log : s.shared.log.Perm (s.flights.flatMap (Flight.logged app) ++ s.flights.flatMap Flight.told)
  counters : s.shared.counters.Proper

theorem kept_init (app : App σ) (service : σ) : Kept app { shared := { service } } :=
  ⟨by simp, .refl _, .nil, by simp [Entries.get?]⟩

section
variable {app : App σ} {s s' : Traffic σ} {i : Nat} {f g : Flight σ}

theorem kept_arrive (K : Kept app s) (contexts : Nat) (ctx : Context) (r : Incoming) :
    Kept app { s with contexts, flights := s.flights ++
      [{ incoming := r, context := ctx, stage := .working (app.work ctx r) }] } := by
  refine ⟨fun f hf => ?_, ?_, K.counters⟩
  · rcases List.mem_append.mp hf with hf | hf
    · exact K.own f hf
    · rw [List.mem_singleton.mp hf]
      refine ⟨fun _ => trivial, fun t ht => ?_⟩
      cases ht
      exact ⟨Task.after_nil _, rfl⟩
  · have nothing : Flight.logged app { incoming := r, context := ctx, stage := .working (app.work ctx r) } = [] := rfl
    simpa only [List.flatMap_append, List.flatMap_singleton, nothing, List.append_nil] using K.log

theorem own_move {t t' : Task σ Ending} {w : World σ} (own : f.Own app) (hstage : f.stage = .working t)
    (h : t.move (s.world f) = some (t', w)) : Flight.Own app
      { f with state := w.request, seen := f.seen ++ [(s.world f).view], stage := .working t' } := by
  obtain ⟨seen, state⟩ := own.working t hstage
  have one := Task.effects_append seen [(s.world f).view]
  refine ⟨fun kept => Task.sees_append seen (own.sees kept) ?_, fun u hu => ?_⟩
  · have now : (s.world f).request.Seen (s.world f).view := World.seen_view kept
    rw [← state]
    exact Task.sees_one _ now
  · cases hu
    refine ⟨?_, ?_⟩
    · rw [Task.after_append, seen]
      exact Task.after_move h
    · rw [one, RequestState.through_append, ← state]
      exact (Task.effects_move h).1

theorem kept_move (K : Kept app s) {t t' : Task σ Ending} {w : World σ} (hf : s.flights[i]? = some f)
    (hstage : f.stage = .working t) (h : t.move (s.world f) = some (t', w)) :
    Kept app ({ s with shared := w.shared }.set i
      { f with state := w.request, seen := f.seen ++ [(s.world f).view], stage := .working t' }) := by
  have own := K.own f (List.mem_of_getElem? hf)
  have logs := Task.effects_append (own.working t hstage).1 [(s.world f).view]
  refine ⟨fun x hx => ?_, ?_, Task.proper_move h K.counters⟩
  · rcases List.mem_or_eq_of_mem_set hx with hx | rfl
    · exact K.own x hx
    · exact own_move own hstage h
  · let g : Flight σ := { f with state := w.request, seen := f.seen ++ [(s.world f).view], stage := .working t' }
    have logged : g.logged app = f.logged app ++ (t.effects [(s.world f).view]).flatMap Effect.logged := by
      rw [Flight.logged, logs, List.flatMap_append]
      rfl
    have work := flatMap_set_perm (Flight.logged app) hf logged
    have tell := flatMap_set_perm Flight.told hf (List.append_nil g.told).symm
    rw [List.append_nil] at tell
    show w.shared.log.Perm _
    rw [(Task.effects_move h).2]
    refine (K.log.append_right _).trans (.trans ?_ (work.append tell))
    rw [List.append_assoc, List.append_assoc]
    exact List.perm_append_comm.append_left _

theorem kept_put (K : Kept app s) (session : Channel.Session) {events : List Log.Event} (hf : s.flights[i]? = some f)
    (stays : f.Stays g) (told : g.told = f.told ++ events) :
    Kept app ({ s with session, shared.log := s.shared.log ++ events }.set i g) := by
  have own := K.own f (List.mem_of_getElem? hf)
  refine ⟨fun x hx => ?_, ?_, K.counters⟩
  · rcases List.mem_or_eq_of_mem_set hx with hx | rfl
    · exact K.own x hx
    · refine ⟨fun kept => ?_, fun t ht => ?_⟩
      · rw [stays.context, stays.incoming, stays.seen]
        exact own.sees (stays.cancelled kept)
      · obtain ⟨hstage, state⟩ := stays.working t ht
        rw [stays.context, stays.incoming, stays.seen, state]
        exact own.working t hstage
  · have logged : g.logged app = f.logged app ++ [] := by
      rw [Flight.logged, Flight.logged, stays.context, stays.incoming, stays.seen, List.append_nil]
    have work := flatMap_set_perm (Flight.logged app) hf logged
    have tell := flatMap_set_perm Flight.told hf told
    rw [List.append_nil] at work
    refine (K.log.append_right _).trans ?_
    rw [List.append_assoc]
    exact work.append tell

/-- Every step keeps the invariant. -/
theorem Turn.kept (h : Turn app s s') (K : Kept app s) : Kept app s' := by
  cases h with
  | arrive contexts ctx r => exact kept_arrive K contexts ctx r
  | channel session => exact ⟨K.own, K.log, K.counters⟩
  | move hf hstage hmove => exact kept_move K hf hstage hmove
  | put session hf stays told => exact kept_put K session hf stays told

theorem kept_run {as : List Action} (K : Kept app s) (h : run app s as = some s') : Kept app s' := by
  induction as generalizing s with
  | nil =>
    rw [run, Option.some.injEq] at h
    exact h ▸ K
  | cons a as ih =>
    rw [run, Option.bind_eq_some_iff] at h
    obtain ⟨s₁, h₁, h₂⟩ := h
    exact ih ((step_turn h₁).kept K) h₂

end

end Traffic

end App

end JsonService
