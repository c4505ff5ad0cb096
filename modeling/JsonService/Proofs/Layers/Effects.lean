import JsonService.Proofs.Layers.Always

/-!
# Effects of a run by itself

A task that runs by itself takes effects, and what it leaves of the state of its request and of the counters is what
those effects make of them.

**Results.**
* `Task.run_request`, `Task.run_counters`: what a run leaves.
* `Task.took_bind`, `took_recorded`, `took_respond`: the effects of composed tasks, of a handler that records its
  response, and of responding.
* `RequestState.through_status`, `RequestState.through_cancelled`: the status is the one recorded last; a cancellation
  is not undone.
-/
namespace JsonService

variable {σ α : Type}

/-! ## Runs of a task by itself -/

theorem Effect.apply_counters (w : World σ) (e : Effect σ) (name : String) :
    (e.apply w).shared.counters.get name = w.shared.counters.get name + e.counted?.toList.count name := by
  cases e with
  | count counted =>
    simp only [Effect.apply, Counters.get_increment, Effect.counted?, Option.toList, List.count_singleton, beq_iff_eq,
      eq_comm (a := name)]
  | _ => rfl

namespace Task

/-- The effects of a run of a task by itself. -/
def took : Task σ α → World σ → List (Effect σ)
  | .done _, _ | .panicked _, _ => []
  | .step effect next, w => effect :: (next w.view).took (effect.apply w)
  | .pause next, w => next.took w
  | .await ready next, w => if ready w.view then next.took w else []

/-- A run leaves of the state of its request what its effects make of it. -/
theorem run_request (t : Task σ α) (w : World σ) : (t.run w).2.request = w.request.through (t.took w) := by
  induction t generalizing w with
  | done | panicked => rfl
  | step effect next ih =>
    rw [run, ih, Effect.apply_request]
    rfl
  | pause next ih => exact ih w
  | await ready next ih =>
    simp only [run, took]
    split
    · exact ih w
    · rfl

/-- A run adds to every counter as often as its effects count it. -/
theorem run_counters (t : Task σ α) (w : World σ) (name : String) :
    (t.run w).2.shared.counters.get name = w.shared.counters.get name + (counted (t.took w)).count name := by
  induction t generalizing w with
  | done | panicked => rfl
  | step effect next ih =>
    rw [run, ih, took, Effect.apply_counters, counted_cons, List.count_append, Nat.add_assoc]
  | pause next ih => exact ih w
  | await ready next ih =>
    simp only [run, took]
    split
    · exact ih w
    · rfl

theorem took_bind {β : Type} (t : Task σ α) (f : α → Task σ β) (w : World σ) :
    (t.bind f).took w = t.took w ++ match t.run w with
      | (.returned a, w') => (f a).took w'
      | _ => [] := by
  induction t generalizing w with
  | done | panicked => rfl
  | step effect next ih =>
    rw [bind, took, ih]
    rfl
  | pause next ih => exact ih w
  | await ready next ih =>
    simp only [bind, took, run]
    split
    · exact ih w
    · rfl

end Task

/-- The status of the response that a run has come to. -/
def Task.Fate.status? : Task.Fate Result → Option Status
  | .returned (.ok res) => some res.status
  | _ => none

theorem took_recorded (h : Handler σ) (ctx : Context) (req : Request) (w : World σ) :
    (Handler.recorded h ctx req).took w = (h ctx req).took w ++ ((h ctx req).run w).1.status?.toList.map .record := by
  rw [Handler.recorded, Task.bind_eq, Task.took_bind]
  congr 1
  rcases (h ctx req).run w with ⟨(_ | _) | _ | _, w'⟩ <;> rfl

/-- Whatever comes of it, `respond` records the status. -/
theorem took_respond (value : Except String Json) (status : Status) (w : World σ) :
    (respond value status : Task σ Result).took w = [.record status] := by
  simp only [respond, Task.bind_eq, Task.record, Task.perform, Task.bind, Task.took]
  congr 1
  split
  · rfl
  · cases value <;> rfl

/-! ## What effects leave of the state of a request -/

def Effect.recorded? : Effect σ → Option Status
  | .record status => some status
  | _ => none

theorem RequestState.through_status (rs : RequestState) (es : List (Effect σ)) :
    (rs.through es).status = (es.filterMap Effect.recorded?).getLast?.or rs.status := by
  induction es generalizing rs with
  | nil => rfl
  | cons e es ih =>
    have first : rs.through (e :: es) = (e.on rs).through es := rfl
    rw [first, ih]
    cases e with
    | record status => simp [Effect.on, Effect.recorded?, List.getLast?_cons]
    | _ => rfl

/-- A request is cancelled by its own cancellations, and stays so. -/
theorem RequestState.through_cancelled (rs : RequestState) (es : List (Effect σ)) :
    (rs.through es).cancelled = true ↔ rs.cancelled = true ∨ .cancel ∈ es := by
  induction es generalizing rs with
  | nil => simp [through]
  | cons e es ih =>
    have first : rs.through (e :: es) = (e.on rs).through es := rfl
    rw [first, ih]
    cases e <;> simp [Effect.on]

end JsonService
