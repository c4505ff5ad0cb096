import JsonService.Proofs.Layers.Paths

/-!
# What a task does whatever others do

Requests share the counters, the log and the state of the service, and a task that takes turns with others may find
anything there. The status in its cell and whether it was cancelled are its own: they are what its own effects have
made of them.

**Always.** `t.Always rs P` says that `t`, whatever the others do meanwhile, never waits and comes to an end, and that
`P` holds of the effects it has taken, of the state of its request then and of what it has come to. It begins with the
state `rs`.

**Doings.** Of all this only some is told further: what the task has come to, the status it leaves, how often it has
counted each name, and what it has logged about requests that are completed.

**Results.**
* `Always.mono`, `Always.bind`, `Always.catchPanic`, `Always.within`: composed tasks.
* `Always.run`, `Always.after`: a run by itself, and what is left of the task after some views of its own state.
* `always_layer`, `always_stack`: what layers make of the doings of the handler inside of them.
-/
namespace JsonService

variable {σ α β : Type}

/-! ## The state of a request -/

/-- The view is of this state of the request, and of anything else. -/
structure RequestState.Seen (rs : RequestState) (v : View σ) : Prop where
  status : v.status = rs.status
  cancelled : v.cancelled = rs.cancelled

/-- What an effect makes of the state of its request. -/
def Effect.on (rs : RequestState) : Effect σ → RequestState
  | .record status => { rs with status := some status }
  | .cancel => { rs with cancelled := true }
  | _ => rs

/-- The state of a request after some effects. -/
def RequestState.through (rs : RequestState) (es : List (Effect σ)) : RequestState := es.foldl Effect.on rs

theorem RequestState.through_append (rs : RequestState) (es es' : List (Effect σ)) :
    rs.through (es ++ es') = (rs.through es).through es' := List.foldl_append

theorem Effect.apply_request (w : World σ) (e : Effect σ) : (e.apply w).request = e.on w.request := by
  cases e <;> rfl

theorem Effect.apply_abandoned (w : World σ) (e : Effect σ) : (e.apply w).abandoned = w.abandoned := by
  cases e <;> rfl

/-- A request that was not given up sees its own state. -/
theorem World.seen_view {w : World σ} (kept : w.abandoned = false) : w.request.Seen w.view :=
  ⟨rfl, by simp [World.view, kept]⟩

/-! ## Tasks -/

namespace Task

/-- Whatever others do meanwhile, the task never waits and comes to an end, and what it does satisfies `P`. -/
def Always : Task σ α → RequestState → (List (Effect σ) → RequestState → Except Panic α → Prop) → Prop
  | .done a, rs, P => P [] rs (.ok a)
  | .panicked p, rs, P => P [] rs (.error p)
  | .step effect next, rs, P => ∀ v, rs.Seen v → (next v).Always (effect.on rs) fun es => P (effect :: es)
  | .pause next, rs, P => next.Always rs P
  | .await ready next, rs, P => (∀ v, rs.Seen v → ready v = true) ∧ next.Always rs P

/-- The effects that a task has taken by the time it has had these views. -/
def effects : Task σ α → List (View σ) → List (Effect σ)
  | .step effect next, v :: vs => effect :: (next v).effects vs
  | .pause next, _ :: vs => next.effects vs
  | .await _ next, _ :: vs => next.effects vs
  | _, _ => []

/-- The views are of a request whose state only this task changes. -/
def Sees : Task σ α → RequestState → List (View σ) → Prop
  | .step effect next, rs, v :: vs => rs.Seen v ∧ (next v).Sees (effect.on rs) vs
  | .pause next, rs, v :: vs => rs.Seen v ∧ next.Sees rs vs
  | .await _ next, rs, v :: vs => rs.Seen v ∧ next.Sees rs vs
  | _, _, _ => True

section
variable {t : Task σ α} {rs : RequestState} {P Q : List (Effect σ) → RequestState → Except Panic α → Prop}

theorem Always.mono (h : t.Always rs P) (hPQ : ∀ es rs x, P es rs x → Q es rs x) : t.Always rs Q := by
  induction t generalizing rs P Q with
  | done | panicked => exact hPQ _ _ _ h
  | step effect next ih => exact fun v seen => ih v (h v seen) fun es => hPQ (effect :: es)
  | pause next ih => exact ih h hPQ
  | await ready next ih => exact ⟨h.1, ih h.2 hPQ⟩

theorem Always.bind {f : α → Task σ β} {R : List (Effect σ) → RequestState → Except Panic β → Prop}
    (h : t.Always rs P)
    (more : ∀ es rs a, P es rs (.ok a) → (f a).Always rs fun es' => R (es ++ es'))
    (panicked : ∀ es rs p, P es rs (.error p) → R es rs (.error p)) : (t.bind f).Always rs R := by
  induction t generalizing rs P R with
  | done a => exact more _ _ _ h
  | panicked p => exact panicked _ _ _ h
  | step effect next ih =>
    exact fun v seen => ih v (h v seen) (fun es => more (effect :: es)) fun es => panicked (effect :: es)
  | pause next ih => exact ih h more panicked
  | await ready next ih => exact ⟨h.1, ih h.2 more panicked⟩

theorem Always.catchPanic (h : t.Always rs P) :
    t.catchPanic.Always rs fun es rs y => ∃ x, P es rs x ∧ y = .ok x := by
  induction t generalizing rs P with
  | done | panicked => exact ⟨_, h, rfl⟩
  | step effect next ih => exact fun v seen => ih v (h v seen)
  | pause next ih => exact ih h
  | await ready next ih => exact ⟨h.1, ih h.2⟩

theorem on_inSpan (span : Log.Span) (rs : RequestState) (effect : Effect σ) :
    (inSpan span effect).on rs = effect.on rs := by
  cases effect <;> rfl

theorem Always.within (span : Log.Span) (h : t.Always rs P) :
    (t.within span).Always rs fun es rs x => ∃ es', P es' rs x ∧ es = es'.map (inSpan span) := by
  induction t generalizing rs P with
  | done | panicked => exact ⟨[], h, rfl⟩
  | step effect next ih =>
    intro v seen
    rw [on_inSpan]
    refine (ih v (h v seen)).mono fun es rs x => ?_
    rintro ⟨es', holds, rfl⟩
    exact ⟨effect :: es', holds, rfl⟩
  | pause next ih => exact ih h
  | await ready next ih => exact ⟨h.1, ih h.2⟩

theorem Always.run {w : World σ} (h : t.Always w.request P) (kept : w.abandoned = false) :
    ∃ es x, P es (t.run w).2.request x ∧ (t.run w).1 = .of x ∧ t.events w = es.flatMap Effect.logged := by
  induction t generalizing w P with
  | done | panicked => exact ⟨[], _, h, rfl, rfl⟩
  | step effect next ih =>
    have first := h w.view (World.seen_view kept)
    rw [← Effect.apply_request] at first
    obtain ⟨es, x, holds, fate, events⟩ := ih w.view first (by rw [Effect.apply_abandoned, kept])
    exact ⟨effect :: es, x, holds, fate, by rw [Task.events, events, List.flatMap_cons]⟩
  | pause next ih => exact ih h kept
  | await ready next ih =>
    have now : ready w.view = true := h.1 _ (World.seen_view kept)
    obtain ⟨es, x, holds, fate, events⟩ := ih h.2 kept
    exact ⟨es, x, by simpa only [Task.run, now, if_true] using holds, by simpa only [Task.run, now, if_true] using fate,
      by simpa only [Task.events, now, if_true] using events⟩

/-! ### After some views -/

theorem Always.after (h : t.Always rs P) {vs : List (View σ)} (sees : t.Sees rs vs) {u : Task σ α}
    (seen : t.after vs = some u) : u.Always (rs.through (t.effects vs)) fun es => P (t.effects vs ++ es) := by
  induction vs generalizing t rs P with
  | nil =>
    rw [after_nil, Option.some.injEq] at seen
    subst seen
    cases t <;> exact h
  | cons v vs ih =>
    cases t with
    | done | panicked => cases seen
    | step effect next => exact ih (h v sees.1) sees.2 seen
    | pause next => exact ih (t := next) h sees.2 seen
    | await ready next =>
      simp only [Task.after] at seen
      split at seen
      · exact ih (t := next) h.2 sees.2 seen
      · cases seen

/-- Once the task is over, what it has done satisfies `P`. -/
theorem Always.ended (h : t.Always rs P) {vs : List (View σ)} (sees : t.Sees rs vs) {u : Task σ α}
    (seen : t.after vs = some u) {x : Except Panic α} (ended : u.result? [] = some x) :
    P (t.effects vs) (rs.through (t.effects vs)) x := by
  have rest := h.after sees seen
  rw [← List.append_nil (t.effects vs)]
  cases u with
  | done | panicked =>
    cases ended
    simpa only [Always, List.append_nil] using rest
  | step | pause | await => cases ended

theorem effects_append {u : Task σ α} {vs : List (View σ)} (seen : t.after vs = some u) (ws : List (View σ)) :
    t.effects (vs ++ ws) = t.effects vs ++ u.effects ws := by
  induction vs generalizing t with
  | nil =>
    rw [after_nil, Option.some.injEq] at seen
    subst seen
    cases t <;> rfl
  | cons v vs ih =>
    cases t with
    | done | panicked => cases seen
    | step effect next => exact congrArg (effect :: ·) (ih (t := next v) seen)
    | pause next => exact ih (t := next) seen
    | await ready next =>
      simp only [Task.after] at seen
      split at seen
      · exact ih (t := next) seen
      · cases seen

theorem sees_append {u : Task σ α} {vs : List (View σ)} (seen : t.after vs = some u) (sees : t.Sees rs vs)
    {ws : List (View σ)} (more : u.Sees (rs.through (t.effects vs)) ws) : t.Sees rs (vs ++ ws) := by
  induction vs generalizing t rs with
  | nil =>
    rw [after_nil, Option.some.injEq] at seen
    subst seen
    cases t <;> exact more
  | cons v vs ih =>
    cases t with
    | done | panicked => cases seen
    | step effect next => exact ⟨sees.1, ih (t := next v) seen sees.2 more⟩
    | pause next => exact ⟨sees.1, ih (t := next) seen sees.2 more⟩
    | await ready next =>
      simp only [Task.after] at seen
      split at seen
      · exact ⟨sees.1, ih (t := next) seen sees.2 more⟩
      · cases seen

theorem sees_one (t : Task σ α) {v : View σ} (seen : rs.Seen v) : t.Sees rs [v] := by
  cases t with
  | done | panicked => trivial
  | step effect next =>
    refine ⟨seen, ?_⟩
    cases next v <;> trivial
  | pause next | await _ next =>
    refine ⟨seen, ?_⟩
    cases next <;> trivial

theorem counts_eq_effects (t : Task σ α) (vs : List (View σ)) : t.counts vs = counted (t.effects vs) := by
  induction vs generalizing t with
  | nil => cases t <;> rfl
  | cons v vs ih =>
    cases t with
    | done | panicked => rfl
    | step effect next => rw [counts, effects, counted_cons, ih]
    | pause next | await _ next => exact ih next

/-- One move takes the effects that the task has after one view more. -/
theorem effects_move {u : Task σ α} {w w' : World σ} (h : t.move w = some (u, w')) :
    w'.request = w.request.through (t.effects [w.view]) ∧
      w'.shared.log = w.shared.log ++ (t.effects [w.view]).flatMap Effect.logged := by
  have last : ∀ u : Task σ α, u.effects [] = [] := fun u => by cases u <;> rfl
  cases t with
  | done | panicked => cases h
  | step effect next =>
    simp only [move, Option.some.injEq, Prod.mk.injEq] at h
    rw [← h.2, effects, last]
    exact ⟨Effect.apply_request w effect, by rw [Effect.apply_log]; simp⟩
  | pause next =>
    simp only [move, Option.some.injEq, Prod.mk.injEq] at h
    rw [← h.2, effects, last]
    exact ⟨rfl, by simp⟩
  | await ready next =>
    simp only [move] at h
    split at h
    · simp only [Option.some.injEq, Prod.mk.injEq] at h
      rw [← h.2, effects, last]
      exact ⟨rfl, by simp⟩
    · cases h

end

end Task

/-! ## Doings -/

/-- What an event says of a request that is completed: the field for its status. -/
def Log.Event.completion? (e : Log.Event) : Option (Option Log.Value) :=
  if e.message = "request completed" then some (e.fields.lookup "status") else none

theorem Log.Event.completion?_eq_none {e : Log.Event} (other : e.message ≠ "request completed") :
    e.completion? = none := if_neg other

/-- What some effects log about completed requests. -/
def completions (es : List (Effect σ)) : List (Option Log.Value) :=
  (es.flatMap Effect.logged).filterMap Log.Event.completion?

/-- What is told of a task's doings. -/
structure Doings (α : Type) where
  /-- What it has come to. -/
  result : Except Panic α
  /-- The status in its cell. -/
  status : Option Status
  /-- How often it has counted each name. -/
  counts : String → Nat
  completions : List (Option Log.Value)

def Doings.of (es : List (Effect σ)) (rs : RequestState) (x : Except Panic α) : Doings α where
  result := x
  status := rs.status
  counts := fun name => (counted es).count name
  completions := JsonService.completions es

theorem completions_append (es es' : List (Effect σ)) :
    completions (es ++ es') = completions es ++ completions es' := by
  simp only [completions, List.flatMap_append, List.filterMap_append]

theorem completions_cons (e : Effect σ) (es : List (Effect σ)) :
    completions (e :: es) = e.logged.filterMap Log.Event.completion? ++ completions es := by
  simp only [completions, List.flatMap_cons, List.filterMap_append]

theorem Doings.of_append (es es' : List (Effect σ)) (rs : RequestState) (x : Except Panic α) :
    Doings.of (es ++ es') rs x =
      { result := x, status := rs.status, counts := fun name => (counted es).count name + (counted es').count name
        completions := JsonService.completions es ++ JsonService.completions es' } := by
  simp only [Doings.of, counted_append, List.count_append, completions_append]

theorem Doings.of_counted (first : String) (es es' : List (Effect σ)) (rs : RequestState) (x : Except Panic α) :
    Doings.of (.count first :: (es ++ es')) rs x =
      { result := x, status := rs.status
        counts := fun name => (counted es).count name + (first :: counted es').count name
        completions := JsonService.completions es ++ JsonService.completions es' } := by
  have sum : ∀ name, (counted (.count first :: (es ++ es'))).count name =
      (counted es).count name + (first :: counted es').count name := by
    intro name
    simp only [counted_cons, counted_append, Effect.counted?, Option.toList_some, List.singleton_append,
      List.count_cons, List.count_append]
    omega
  simp only [Doings.of, sum, completions_cons, completions_append]
  rfl

theorem Doings.of_quiet {e : Effect σ} (none : e.counted? = none)
    (other : e.logged.filterMap Log.Event.completion? = []) (es : List (Effect σ)) (rs : RequestState)
    (x : Except Panic α) : Doings.of (e :: es) rs x = Doings.of es rs x := by
  simp only [Doings.of, counted_cons, completions_cons, none, other, Option.toList_none, List.nil_append]

theorem Doings.of_same (es : List (Effect σ)) (rs : RequestState) (x : Except Panic α) :
    Doings.of es rs x =
      { result := x, status := rs.status, counts := fun name => (counted es).count name + 0
        completions := JsonService.completions es ++ [] } := by
  simp only [Doings.of, Nat.add_zero, List.append_nil]

theorem counted_inSpan (span : Log.Span) (es : List (Effect σ)) : counted (es.map (Task.inSpan span)) = counted es := by
  simp only [counted, List.filterMap_map, Function.comp_def, Task.counted?_inSpan]

theorem completions_inSpan (span : Log.Span) (es : List (Effect σ)) :
    completions (es.map (Task.inSpan span)) = completions es := by
  induction es with
  | nil => rfl
  | cons e es ih =>
    rw [List.map_cons, completions_cons, completions_cons, ih]
    cases e <;> rfl

theorem Doings.of_inSpan (span : Log.Span) (es : List (Effect σ)) (rs : RequestState) (x : Except Panic α) :
    Doings.of (es.map (Task.inSpan span)) rs x = Doings.of es rs x := by
  simp only [Doings.of, counted_inSpan, completions_inSpan]

/-! ## Layers -/

/-- The status in the cell after a built-in layer. -/
def Builtin.leaves : Builtin → Except Panic Result → Option Status → Option Status
  | .errors, .ok (.error e), _ => some e.answerStatus
  | _, _, status => status

def Builtin.says : Builtin → Except Panic Result → Option Status → List (Option Log.Value)
  | .logger, .ok _, status => [some (.number ((status.map (·.code)).getD 0))]
  | _, _, _ => []

/-- What a built-in layer makes of the doings of the handler inside of it. -/
def Builtin.does (b : Builtin) (d : Doings Result) : Doings Result where
  result := b.onEnd d.result
  status := b.leaves d.result d.status
  counts := fun name => d.counts name + (b.counted d.result).count name
  completions := d.completions ++ b.says d.result d.status

/-- What is made of it when a response is recorded. -/
def Doings.recorded (d : Doings Result) : Doings Result :=
  { d with status := match d.result with
      | .ok (.ok res) => some res.status
      | _ => d.status }

/-- What built-in layers make of the doings of the handler inside of them. -/
def Doings.inside (stack : List Builtin) (d : Doings Result) : Doings Result :=
  stack.foldr (fun b d => (b.does d).recorded) d.recorded

/-- What the handler comes to decides what comes out of the layers. -/
theorem Doings.inside_result (stack : List Builtin) (d : Doings Result) :
    (d.inside stack).result = onEnd stack d.result := by
  induction stack with
  | nil => rfl
  | cons b stack ih =>
    show b.onEnd (d.inside stack).result = b.onEnd (onEnd stack d.result)
    rw [ih]

/-- The doings of a task around one of whose doings `P` holds. -/
def Made (P : List (Effect σ) → RequestState → Except Panic Result → Prop) (make : Doings Result → Doings α)
    (es : List (Effect σ)) (rs : RequestState) (x : Except Panic α) : Prop :=
  ∃ es' rs' y, P es' rs' y ∧ Doings.of es rs x = make (Doings.of es' rs' y)

section
variable {P : List (Effect σ) → RequestState → Except Panic Result → Prop}

theorem Made.trans {make : Doings Result → Doings Result} {make' : Doings Result → Doings α} {es : List (Effect σ)}
    {rs : RequestState} {x : Except Panic α} (h : Made (Made P make) make' es rs x) :
    Made P (fun d => make' (make d)) es rs x := by
  obtain ⟨es₁, rs₁, y₁, ⟨es₂, rs₂, y₂, holds, same⟩, same'⟩ := h
  exact ⟨es₂, rs₂, y₂, holds, by rw [same', same]⟩

variable {h : Handler σ} {ctx : Context} {req : Request} {rs : RequestState} (inner : (h ctx req).Always rs P)
include inner

theorem always_recorded : (Handler.recorded h ctx req).Always rs (Made P Doings.recorded) := by
  refine inner.bind (fun es rs r holds => ?_) fun es rs p holds => ⟨es, rs, _, holds, rfl⟩
  cases r with
  | ok res =>
    intro v _
    refine ⟨es, rs, _, holds, ?_⟩
    rw [Doings.of_append, Doings.of_same es]
    rfl
  | error e => exact ⟨es, rs, _, holds, by rw [List.append_nil]; rfl⟩

theorem always_logger : (Layers.logger h ctx req).Always rs (Made P Builtin.logger.does) := by
  simp only [Layers.logger, Task.log, Task.perform, Task.look, Task.bind_eq, Task.bind]
  intro v _
  refine inner.bind (fun es rs r holds => ?_) fun es rs p holds => ⟨es, rs, _, holds, Doings.of_same es rs _⟩
  intro v seen _ _
  refine ⟨es, rs, _, holds, ?_⟩
  rw [seen.status]
  exact Doings.of_append es _ rs _

theorem always_errors : (Layers.errors h ctx req).Always rs (Made P Builtin.errors.does) := by
  refine inner.bind (fun es rs r holds => ?_) fun es rs p holds => ⟨es, rs, _, holds, Doings.of_same es rs _⟩
  cases r with
  | ok res => exact ⟨es, rs, _, holds, Doings.of_append es [] rs _⟩
  | error e =>
    have rendered : e.rendered = if e.isShutdown then .error e else .ok e.response := rfl
    have left : e.answerStatus = if e.isShutdown then .unavailable else e.status := rfl
    cases hs : e.isShutdown with
    | true =>
      simp only [hs, if_true] at rendered left ⊢
      intro v _ v' _
      refine ⟨es, rs, _, holds, (Doings.of_append es _ _ _).trans ?_⟩
      simp only [Builtin.does, Doings.of, Builtin.onEnd, Builtin.leaves, rendered, left]
      rfl
    | false =>
      simp only [hs, Bool.false_eq_true, if_false] at rendered left ⊢
      cases e.status.isServerError <;>
      · intro v _ v' _
        refine ⟨es, rs, _, holds, (Doings.of_append es _ _ _).trans ?_⟩
        simp only [Builtin.does, Doings.of, Builtin.onEnd, Builtin.leaves, rendered, left]
        rfl

theorem always_metrics : (Layers.metrics h ctx req).Always rs (Made P Builtin.metrics.does) := by
  simp only [Layers.metrics, Task.count, Task.perform, Task.bind_eq, Task.bind]
  intro v _
  refine inner.bind (fun es rs r holds => ?_) fun es rs p holds => ⟨es, rs, _, holds, ?_⟩
  · cases r with
    | ok res => exact ⟨es, rs, _, holds, Doings.of_counted _ es [] rs _⟩
    | error e =>
      intro v' _
      exact ⟨es, rs, _, holds, Doings.of_counted _ es _ rs _⟩
  · have same := Doings.of_counted Counters.requests es [] rs (.error p : Except Panic Result)
    rw [List.append_nil] at same
    exact same

theorem always_panics : (Layers.panics h ctx req).Always rs (Made P Builtin.panics.does) := by
  refine inner.catchPanic.bind ?_ ?_
  · rintro es rs r ⟨x, holds, same⟩
    obtain rfl := Except.ok.inj same
    cases r with
    | ok result => exact ⟨es, rs, _, holds, Doings.of_append es [] rs _⟩
    | error p =>
      intro v _ v' _
      exact ⟨es, rs, _, holds, Doings.of_append es _ rs _⟩
  · rintro es rs p ⟨x, -, none⟩
    cases none

theorem always_layer (b : Builtin) : (b.layer h ctx req).Always rs (Made P b.does) := by
  cases b with
  | logger => exact always_logger inner
  | errors => exact always_errors inner
  | metrics => exact always_metrics inner
  | panics => exact always_panics inner

end

/-- What built-in layers make of the doings of a handler. -/
theorem always_stack {P : List (Effect σ) → RequestState → Except Panic Result → Prop} {h : Handler σ} {ctx : Context}
    {req : Request} {rs : RequestState} (inner : (h ctx req).Always rs P) (stack : List Builtin) :
    (h.within (stack.map Builtin.layer) ctx req).Always rs (Made P (Doings.inside stack)) := by
  induction stack with
  | nil => exact always_recorded inner
  | cons b stack ih =>
    exact (always_recorded (always_layer ih b)).mono fun es rs x made => made.trans.trans

end JsonService
