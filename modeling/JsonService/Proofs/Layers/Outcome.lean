import JsonService.Proofs.App.Concurrent
import JsonService.Proofs.Layers.Answers

/-!
# What layers keep of a handler's outcome

Built-in layers do some effects, then everything that the handler inside of them does, then some effects more.
Whatever they make of its outcome, they ask the server to stop just if the handler did, and for the same
reason: no layer swallows such a failure, and none makes one up.

**Heads.** `Heads stop o t` says that `t` takes effects only, lets nobody go first, and ends asking for `o`.
**Wraps.** `Wraps stop n t h` says that `t` makes `n` moves of its own, then those of `h`, and then heads for what
`h` has come to. Both say it of whole trees, so they hold whatever other requests do in between.

**Results.**
* `wraps_within`: built-in layers wrap the handler inside of them.
* `wraps_work`: the work on a request wraps the handler that the request reaches; `heads_work`: it heads for a
  response if there is none.
* `Wraps.heads`, `Wraps.ended`: once the handler has ended, the work heads for its outcome, and not before.
-/
namespace JsonService

variable {σ α β : Type}

/-- The failure of a result that asks the server to stop. -/
def stop? : Result → Option Failure
  | .ok _ => none
  | .error e => if e.isShutdown then some e else none

/-- The same of a task that may have panicked. -/
def caughtStop? (stop : α → Option Failure) : Except Panic α → Option Failure
  | .ok a => stop a
  | .error _ => none

def App.Ending.stop? : App.Ending → Option Failure
  | .respond _ => none
  | .shutdown e => some e

namespace Task

/-- What a task has come to by the time it has had these views, however many more there are. -/
def result? : Task σ α → List (View σ) → Option (Except Panic α)
  | .done a, _ => some (.ok a)
  | .panicked p, _ => some (.error p)
  | _, [] => none
  | .step _ next, v :: vs => (next v).result? vs
  | .pause next, _ :: vs => next.result? vs
  | .await ready next, v :: vs => if ready v then next.result? vs else none

theorem result?_of_nil {t : Task σ α} {x : Except Panic α} (h : t.result? [] = some x) (vs : List (View σ)) :
    t.result? vs = some x := by
  cases t <;> simp_all [result?]

/-! ## Tasks that head for something -/

/-- The task takes effects only and ends asking for `o`. -/
inductive Heads (stop : α → Option Failure) (o : Option Failure) : Task σ α → Prop
  | done : stop a = o → Heads stop o (.done a)
  | panicked : o = none → Heads stop o (.panicked p)
  | step : (∀ v, Heads stop o (next v)) → Heads stop o (.step effect next)

section
variable {stop : α → Option Failure} {stop' : β → Option Failure} {o : Option Failure} {t : Task σ α}

theorem Heads.bind {k : α → Task σ β} (hk : ∀ a, Heads stop' (stop a) (k a)) (h : Heads stop o t) :
    Heads stop' o (t.bind k) := by
  induction h with
  | done ha => exact ha ▸ hk _
  | panicked ho => exact .panicked ho
  | step _ ih => exact .step ih

theorem Heads.within (span : Log.Span) (h : Heads stop o t) : Heads stop o (t.within span) := by
  induction h with
  | done ha => exact .done ha
  | panicked ho => exact .panicked ho
  | step _ ih => exact .step ih

theorem Heads.catchPanic (h : Heads stop o t) : Heads (caughtStop? stop) o t.catchPanic := by
  induction h with
  | done ha => exact .done ha
  | panicked ho => exact .done ho.symm
  | step _ ih => exact .step ih

theorem Heads.after (h : Heads stop o t) {vs : List (View σ)} {t' : Task σ α} (ht : t.after vs = some t') :
    Heads stop o t' := by
  induction vs generalizing t with
  | nil =>
    rw [after_nil, Option.some.injEq] at ht
    exact ht ▸ h
  | cons v vs ih =>
    cases h with
    | done => cases ht
    | panicked => cases ht
    | step hnext => exact ih (hnext v) ht

end

/-! ## Tasks that wrap a handler -/

/-- After `n` moves the task makes those of the handler, and then heads for what the handler has come to. -/
inductive Wraps (stop : β → Option Failure) : Nat → Task σ β → Task σ Result → Prop
  | enter : (∀ v, Wraps stop n (next v) h) → Wraps stop (n + 1) (.step effect next) h
  | enterLater : Wraps stop n next h → Wraps stop (n + 1) (.pause next) h
  | step : (∀ v, Wraps stop 0 (next v) (next' v)) → Wraps stop 0 (.step effect next) (.step effect' next')
  | pause : Wraps stop 0 next next' → Wraps stop 0 (.pause next) (.pause next')
  | await : Wraps stop 0 next next' → Wraps stop 0 (.await ready next) (.await ready next')
  | leave : h.result? [] = some x → Heads stop (caughtStop? stop? x) t → Wraps stop 0 t h

namespace Wraps

section
variable {stop : α → Option Failure} {stop' : β → Option Failure} {n : Nat} {t : Task σ α} {h : Task σ Result}

theorem refl (h : Task σ Result) : Wraps stop? 0 h h := by
  induction h with
  | done r => exact .leave rfl (.done rfl)
  | panicked p => exact .leave rfl (.panicked rfl)
  | step effect next ih => exact .step ih
  | pause next ih => exact .pause ih
  | await ready next ih => exact .await ih

theorem bind {k : α → Task σ β} (hk : ∀ a, Heads stop' (stop a) (k a)) (w : Wraps stop n t h) :
    Wraps stop' n (t.bind k) h := by
  induction w with
  | enter _ ih => exact .enter ih
  | enterLater _ ih => exact .enterLater ih
  | step _ ih => exact .step ih
  | pause _ ih => exact .pause ih
  | await _ ih => exact .await ih
  | leave hx heads => exact .leave hx (heads.bind hk)

theorem within (span : Log.Span) (w : Wraps stop n t h) : Wraps stop n (t.within span) h := by
  induction w with
  | enter _ ih => exact .enter ih
  | enterLater _ ih => exact .enterLater ih
  | step _ ih => exact .step ih
  | pause _ ih => exact .pause ih
  | await _ ih => exact .await ih
  | leave hx heads => exact .leave hx (heads.within span)

theorem catchPanic (w : Wraps stop n t h) : Wraps (caughtStop? stop) n t.catchPanic h := by
  induction w with
  | enter _ ih => exact .enter ih
  | enterLater _ ih => exact .enterLater ih
  | step _ ih => exact .step ih
  | pause _ ih => exact .pause ih
  | await _ ih => exact .await ih
  | leave hx heads => exact .leave hx heads.catchPanic

theorem heads (w : Wraps stop n t h) {seen : List (View σ)} {t' : Task σ α} (ht : t.after seen = some t')
    (entered : n ≤ seen.length) {x : Except Panic Result} (hx : h.result? (seen.drop n) = some x) :
    Heads stop (caughtStop? stop? x) t' := by
  induction w generalizing seen with
  | enter _ ih =>
    cases seen with
    | nil => simp at entered
    | cons v vs => exact ih v ht (Nat.le_of_succ_le_succ entered) hx
  | enterLater _ ih =>
    cases seen with
    | nil => simp at entered
    | cons v vs => exact ih ht (Nat.le_of_succ_le_succ entered) hx
  | step _ ih =>
    cases seen with
    | nil => cases hx
    | cons v vs => exact ih v ht (Nat.zero_le _) hx
  | pause _ ih =>
    cases seen with
    | nil => cases hx
    | cons v vs => exact ih ht (Nat.zero_le _) hx
  | await _ ih =>
    cases seen with
    | nil => cases hx
    | cons v vs =>
      simp only [Task.after, List.drop_zero, result?] at ht hx
      split at ht
      · next hready =>
        rw [if_pos hready] at hx
        exact ih ht (Nat.zero_le _) hx
      · cases ht
  | leave hy heads =>
    rw [result?_of_nil hy, Option.some.injEq] at hx
    exact hx ▸ heads.after ht

theorem ended (w : Wraps stop n t h) {seen : List (View σ)} {a : α} (ht : t.after seen = some (.done a)) :
    n ≤ seen.length ∧ ∃ x, h.result? (seen.drop n) = some x ∧ caughtStop? stop? x = stop a := by
  induction w generalizing seen with
  | enter _ ih =>
    cases seen with
    | nil => cases ht
    | cons v vs =>
      obtain ⟨entered, hx⟩ := ih v ht
      exact ⟨Nat.succ_le_succ entered, hx⟩
  | enterLater _ ih =>
    cases seen with
    | nil => cases ht
    | cons v vs =>
      obtain ⟨entered, hx⟩ := ih ht
      exact ⟨Nat.succ_le_succ entered, hx⟩
  | step _ ih =>
    cases seen with
    | nil => cases ht
    | cons v vs => exact ⟨Nat.zero_le _, (ih v ht).2⟩
  | pause _ ih =>
    cases seen with
    | nil => cases ht
    | cons v vs => exact ⟨Nat.zero_le _, (ih ht).2⟩
  | await _ ih =>
    cases seen with
    | nil => cases ht
    | cons v vs =>
      simp only [Task.after] at ht
      split at ht
      · next hready =>
        refine ⟨Nat.zero_le _, ?_⟩
        simp only [List.drop_zero, result?, hready, if_true]
        exact (ih ht).2
      · cases ht
  | leave hx heads =>
    refine ⟨Nat.zero_le _, _, result?_of_nil hx _, ?_⟩
    cases heads.after ht with
    | done ha => exact ha.symm

end

end Wraps

end Task

/-! ## Built-in layers -/

/-- How many effects some layers take before they call the handler inside of them. -/
def entering (stack : List Builtin) : Nat := stack.countP fun b => b = .logger ∨ b = .metrics

section
variable {h : Handler σ} {ctx : Context} {req : Request} {n : Nat} {inner : Task σ Result}

theorem heads_recorded (r : Result) : Task.Heads (σ := σ) stop? (stop? r) (match r with
    | .ok res => (Task.record res.status).bind fun _ => .done (.ok res)
    | .error e => .done (.error e)) := by
  cases r with
  | ok res => exact .step fun _ => .done rfl
  | error e => exact .done rfl

theorem wraps_recorded (w : Task.Wraps stop? n (h ctx req) inner) :
    Task.Wraps stop? n (Handler.recorded h ctx req) inner :=
  w.bind heads_recorded

/-- What the layer for errors makes of a result asks for the same. -/
theorem wraps_errors (w : Task.Wraps stop? n (h ctx req) inner) :
    Task.Wraps stop? n (Layers.errors h ctx req) inner := by
  refine w.bind fun r => ?_
  cases r with
  | ok res => exact .done rfl
  | error e =>
    simp only [stop?]
    cases hs : e.isShutdown with
    | true => exact .step fun _ => .step fun _ => .done (by simp [stop?, hs])
    | false =>
      simp only [Bool.false_eq_true, if_false]
      cases e.status.isServerError <;> exact .step fun _ => .step fun _ => .done rfl

theorem wraps_layer (w : Task.Wraps stop? n (h ctx req) inner) (b : Builtin) :
    Task.Wraps stop? (entering [b] + n) (b.layer h ctx req) inner := by
  cases b with
  | logger =>
    simp only [Builtin.layer, Layers.logger, Task.log, Task.perform, Task.look, Task.bind_eq, Task.bind]
    rw [Nat.add_comm]
    exact .enter fun _ => w.bind fun r => .step fun _ => .step fun _ => .done rfl
  | errors => exact (Nat.zero_add n).symm ▸ wraps_errors w
  | metrics =>
    simp only [Builtin.layer, Layers.metrics, Task.count, Task.perform, Task.bind_eq, Task.bind]
    rw [Nat.add_comm]
    refine .enter fun _ => w.bind fun r => ?_
    cases r with
    | ok res => exact .done rfl
    | error e => exact .step fun _ => .done rfl
  | panics =>
    refine (Nat.zero_add n).symm ▸ w.catchPanic.bind fun r => ?_
    cases r with
    | ok result => exact .done rfl
    | error p => exact .step fun _ => .step fun _ => .done rfl

/-- Built-in layers wrap the handler inside of them. -/
theorem wraps_within (h : Handler σ) (ctx : Context) (req : Request) (stack : List Builtin) :
    Task.Wraps stop? (entering stack) (h.within (stack.map Builtin.layer) ctx req) (h ctx req) := by
  induction stack with
  | nil => exact wraps_recorded (.refl _)
  | cons b stack ih =>
    have split : entering (b :: stack) = entering [b] + entering stack := by
      rw [entering, ← List.singleton_append, List.countP_append]
      rfl
    rw [split]
    exact wraps_recorded (wraps_layer ih b)

end

/-! ## The work on a request -/

namespace App

/-- A table leads a request to what it carries, and this is how a handler sees the request. -/
structure Finds (table : Route.Table β) (r : Incoming) (v : β) (req : Request) : Prop where
  method : Method.ofName? r.method = some req.method
  route : table.lookup req.method r.target.path = .found v req.params
  body : r.body.collect = .ok req.body
  target : req.target = r.target
  headers : req.headers = r.headers
  /-- It came over no connection. -/
  remote : req.remote = none

theorem Finds.unique {table : Route.Table β} {r : Incoming} {v v' : β} {req req' : Request}
    (h : Finds table r v req) (h' : Finds table r v' req') : v = v' ∧ req = req' := by
  obtain ⟨method, target, headers, body, params, remote⟩ := req
  obtain ⟨method', target', headers', body', params', remote'⟩ := req'
  obtain ⟨hm, hroute, hbody, rfl, rfl, rfl⟩ := h
  obtain ⟨hm', hroute', hbody', rfl, rfl, rfl⟩ := h'
  obtain rfl := Option.some.inj (hm.symm.trans hm')
  obtain ⟨rfl, rfl⟩ := Route.Lookup.found.inj (hroute.symm.trans hroute')
  obtain rfl := Except.ok.inj (hbody.symm.trans hbody')
  exact ⟨rfl, rfl⟩

theorem heads_settle (ctx : Context) (r : Result) :
    Task.Heads (σ := σ) Ending.stop? (stop? r) (settle ctx r) := by
  cases r with
  | ok res => exact .done rfl
  | error e =>
    simp only [settle, stop?]
    cases e.isShutdown with
    | true => exact .done rfl
    | false => exact .step fun _ => .step fun _ => .done rfl

section
variable {app : App σ} {table : Route.Table β} {g : β → Handler σ} (routes : app.routes = table.map g)
  (ctx : Context) {r : Incoming}
include routes

theorem Finds.reaches {v : β} {req : Request} (finds : Finds table r v req) : app.Reaches r (g v) req where
  method := finds.method
  route := by rw [routes, Route.Table.lookup_map, finds.route]; rfl
  body := finds.body
  target := finds.target
  headers := finds.headers
  remote := finds.remote

/-- The work on a request wraps the handler that the request reaches. -/
theorem wraps_work {v : β} {req : Request} (finds : Finds table r v req) {n : Nat} {inner : Task σ Result}
    (w : Task.Wraps stop? n (g v ctx req) inner) : Task.Wraps Ending.stop? (n + 1) (app.work ctx r) inner := by
  rw [work, (finds.reaches routes).dispatch ctx]
  exact .enterLater ((w.within _).bind (heads_settle ctx))

theorem heads_work (lost : ∀ v req, ¬Finds table r v req) :
    Task.Heads Ending.stop? none (app.dispatch ctx r) := by
  have fallback : ∀ status, Task.Heads (σ := σ) Ending.stop? none (fallback status) :=
    fun _ => .step fun _ => .done rfl
  simp only [dispatch, routes, Route.Table.lookup_map]
  cases hm : Method.ofName? r.method with
  | none => exact fallback _
  | some method =>
    simp only
    cases hroute : table.lookup method r.target.path with
    | methodNotAllowed => exact fallback _
    | notFound => exact fallback _
    | found v params =>
      simp only [Route.Lookup.map]
      cases hbody : r.body.collect with
      | error reason => exact .step fun _ => .step fun _ => .done rfl
      | ok body =>
        exact absurd ⟨hm, hroute, hbody, rfl, rfl, rfl⟩
          (lost v { method, target := r.target, headers := r.headers, body, params })

end

end App

/-! ## What tasks log -/

namespace Task

/-- Whatever the task logs satisfies `P`. -/
inductive Logs (P : Log.Event → Prop) : Task σ α → Prop
  | done : Logs P (.done a)
  | panicked : Logs P (.panicked p)
  | step : (∀ e ∈ effect.logged, P e) → (∀ v, Logs P (next v)) → Logs P (.step effect next)
  | pause : Logs P next → Logs P (.pause next)
  | await : Logs P next → Logs P (.await ready next)

section
variable {P : Log.Event → Prop} {t : Task σ α}

theorem Logs.bind {k : α → Task σ β} (hk : ∀ a, (k a).Logs P) (h : t.Logs P) : (t.bind k).Logs P := by
  induction h with
  | done => exact hk _
  | panicked => exact .panicked
  | step he _ ih => exact .step he ih
  | pause _ ih => exact .pause ih
  | await _ ih => exact .await ih

/-- Within a span every event has one. -/
theorem logs_within (span : Log.Span) (hP : ∀ e : Log.Event, e.span.isSome → P e) (t : Task σ α) :
    (t.within span).Logs P := by
  induction t with
  | done => exact .done
  | panicked => exact .panicked
  | step effect next ih =>
    refine .step (fun e he => hP e ?_) ih
    cases effect <;> simp_all [inSpan, Effect.logged]
  | pause next ih => exact .pause ih
  | await ready next ih => exact .await ih

theorem Logs.move (h : t.Logs P) {w w' : World σ} {t' : Task σ α} (ht : t.move w = some (t', w')) :
    ∃ events, w'.shared.log = w.shared.log ++ events ∧ ∀ e ∈ events, P e := by
  have unchanged : w = w' → ∃ events, w'.shared.log = w.shared.log ++ events ∧ ∀ e ∈ events, P e :=
    fun hw => ⟨[], by rw [hw, List.append_nil], by simp⟩
  cases h with
  | done => cases ht
  | panicked => cases ht
  | step he _ =>
    simp only [Task.move, Option.some.injEq, Prod.mk.injEq] at ht
    exact ⟨_, ht.2 ▸ Effect.apply_log w _, he⟩
  | pause _ =>
    simp only [Task.move, Option.some.injEq, Prod.mk.injEq] at ht
    exact unchanged ht.2
  | await _ =>
    simp only [Task.move] at ht
    split at ht
    · simp only [Option.some.injEq, Prod.mk.injEq] at ht
      exact unchanged ht.2
    · cases ht

theorem Logs.after (h : t.Logs P) {vs : List (View σ)} {t' : Task σ α} (ht : t.after vs = some t') : t'.Logs P := by
  induction vs generalizing t with
  | nil =>
    rw [after_nil, Option.some.injEq] at ht
    exact ht ▸ h
  | cons v vs ih =>
    cases h with
    | done => cases ht
    | panicked => cases ht
    | step _ hnext => exact ih (hnext v) ht
    | pause hnext => exact ih hnext ht
    | await hnext =>
      simp only [Task.after] at ht
      split at ht
      · exact ih hnext ht
      · cases ht

end

end Task

namespace App

/-- The event is one about a signal, from outside of the work on any request. -/
def isSignalled (e : Log.Event) : Bool := e.message = "signalling shutdown" ∧ e.span = none

/-- What is logged of a body that cannot be read begins like no other message. -/
theorem unreadable_ne (reason : String) {message : String} (other : message.toList.take 3 ≠ "rea".toList) :
    s!"reading request body: {reason}" ≠ message := by
  rintro rfl
  refine other ?_
  show ("reading request body: " ++ reason).toList.take 3 = _
  rw [String.toList_append]
  rfl

/-- No work logs that the server is to stop, whatever its handler logs in its span. -/
theorem logs_work (app : App σ) (ctx : Context) (r : Incoming) :
    (app.work ctx r).Logs fun e => isSignalled e = false := by
  have other : ∀ m : String, m ≠ "signalling shutdown" → ∀ level fields,
      isSignalled { level, message := m, fields } = false := by
    intro m hm level fields
    simp [isSignalled, hm]
  have fallback : ∀ status, (fallback (σ := σ) status).Logs fun e => isSignalled e = false :=
    fun _ => .step (by simp [Effect.logged]) fun _ => .done
  refine .pause ?_
  unfold dispatch
  split
  · exact fallback _
  · split
    · exact fallback _
    · exact fallback _
    · split
      · refine .step ?_ fun _ => .step (by simp [Effect.logged]) fun _ => .done
        simp only [Effect.logged, List.forall_mem_singleton]
        exact other _ (unreadable_ne _ (by decide)) _ _
      · refine Task.Logs.bind (fun result => ?_) (Task.logs_within _ ?_ _)
        · cases result with
          | ok res => exact .done
          | error e =>
            simp only [settle]
            cases e.isShutdown with
            | true => exact .done
            | false =>
              refine .step ?_ fun _ => .step (by simp [Effect.logged]) fun _ => .done
              simp only [Effect.logged, List.forall_mem_singleton]
              exact other _ (by decide) _ _
        · intro e he
          simp only [isSignalled, decide_eq_false_iff_not, not_and]
          intro _ hspan
          rw [hspan] at he
          cases he

end App

end JsonService
