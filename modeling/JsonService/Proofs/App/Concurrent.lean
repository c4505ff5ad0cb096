import JsonService.Proofs.App.Ending
import JsonService.Proofs.Shutdown.OneSignal

/-!
# Requests side by side

`App.call` runs one request to its end. Here any number of requests are under way at once, and each takes one
step when it is its turn: one effect of its handler or of a layer, one of the two steps of a call to signal, or
one line of the log. A request may be given up wherever its work lets others go first or waits, and before its
body has been read. The receiver of the application's channel acts in between, and nobody else signals.

**Flights.** A `Flight` is one request: what it works on, every view it has had, and its stage. The work goes on
until it ends; a failure that asks for a shutdown then signals, and what is left to say is told line by line
before the request is answered.

**Results.**
* `after_append`, `after_move`: what is left of a task after some views.
* `run_append`: a run in two parts.
* `changed_changed`, `changed_self`: a state in which one flight has gone on.
-/
namespace JsonService

variable {σ α β : Type}

namespace Task

/-- The next move of a task, unless it is over or waits for something that is not the case. -/
def move : Task σ α → World σ → Option (Task σ α × World σ)
  | .done _, _ | .panicked _, _ => none
  | .step effect next, w => some (next w.view, effect.apply w)
  | .pause next, w => some (next, w)
  | .await ready next, w => if ready w.view then some (next, w) else none

/-- What is left of a task after one move for each view. -/
def after : Task σ α → List (View σ) → Option (Task σ α)
  | t, [] => some t
  | .done _, _ :: _ | .panicked _, _ :: _ => none
  | .step _ next, v :: vs => (next v).after vs
  | .pause next, _ :: vs => next.after vs
  | .await ready next, v :: vs => if ready v then next.after vs else none

/-- A task that lets others go first or waits may be given up there. -/
def yields : Task σ α → Bool
  | .pause _ | .await _ _ => true
  | _ => false

@[simp] theorem after_nil (t : Task σ α) : t.after [] = some t := by cases t <;> rfl

theorem after_append (t : Task σ α) (vs ws : List (View σ)) :
    t.after (vs ++ ws) = (t.after vs).bind fun u => u.after ws := by
  induction vs generalizing t with
  | nil => simp
  | cons v vs ih =>
    cases t with
    | done | panicked => rfl
    | step effect next => exact ih (next v)
    | pause next => exact ih next
    | await ready next =>
      simp only [List.cons_append, after]
      split
      · exact ih next
      · rfl

/-- Only whoever runs a request gives it up. -/
theorem move_abandoned {t t' : Task σ α} {w w' : World σ} (h : t.move w = some (t', w')) :
    w'.abandoned = w.abandoned := by
  cases t with
  | done | panicked => cases h
  | step effect next =>
    simp only [move, Option.some.injEq, Prod.mk.injEq] at h
    rw [← h.2]
    cases effect <;> rfl
  | pause next =>
    simp only [move, Option.some.injEq, Prod.mk.injEq] at h
    rw [h.2]
  | await ready next =>
    simp only [move] at h
    split at h
    · simp only [Option.some.injEq, Prod.mk.injEq] at h
      rw [h.2]
    · cases h

theorem after_move {t t' : Task σ α} {w w' : World σ} (h : t.move w = some (t', w')) :
    t.after [w.view] = some t' := by
  cases t with
  | done | panicked => cases h
  | step effect next =>
    simp only [move, Option.some.injEq, Prod.mk.injEq] at h
    simp only [after, h.1, after_nil]
  | pause next =>
    simp only [move, Option.some.injEq, Prod.mk.injEq] at h
    simp only [after, h.1, after_nil]
  | await ready next =>
    simp only [move] at h
    split at h
    · next hready =>
      simp only [Option.some.injEq, Prod.mk.injEq] at h
      simp only [after, hready, if_true, h.1, after_nil]
    · cases h

end Task

namespace App

/-! ## Flights -/

inductive Stage (σ : Type) where
  | working (t : Task σ Ending)
  /-- The server is to stop, and a call to signal is under way. -/
  | signalling (e : Failure)
  /-- The response is there, and some events are left to log. -/
  | telling (res : Response) (events : List Log.Event)
  | ended (outcome : Outcome)

structure Flight (σ : Type) where
  incoming : Incoming
  context : Context
  state : RequestState := {}
  /-- Whether whoever runs the request has cancelled it. -/
  cancelled : Bool := false
  /-- What its work has seen, move by move. -/
  seen : List (View σ) := []
  /-- The number of its call to signal, once there is one. -/
  call : Option Nat := none
  /-- What has been logged since its work was over. -/
  told : List Log.Event := []
  stage : Stage σ

/-- The work on a request, which begins once its body is there. -/
def work (app : App σ) (ctx : Context) (r : Incoming) : Task σ Ending := .pause (app.dispatch ctx r)

def signalled (ctx : Context) (e : Failure) (first : Bool) : Log.Event where
  level := .error
  message := "signalling shutdown"
  fields := [ctx.traceField, ("error", .words e.message), ("first", .bool first)]

/-- The response with the trace of its request. -/
def traced (ctx : Context) (res : Response) : Response := res.push traceHeader ctx.trace.render

/-- What is logged of a response that goes on the wire. -/
def droppedEvents (ctx : Context) (res : Response) : List Log.Event :=
  (traced ctx res).dropped.map State.droppedEvent

/-- The outcome of a request whose work comes to this. -/
def Outcome.of (ctx : Context) : Except Panic Ending → Outcome
  | .ok ending => .answered (traced ctx ending.response).toWire
  | .error p => .panicked p

namespace Flight

/-- The flight with its response and what is to be logged first. -/
def tell (f : Flight σ) (res : Response) (events : List Log.Event) : Flight σ :=
  { f with stage := .telling (traced f.context res) (events ++ droppedEvents f.context res) }

/-- The flight at its end. -/
def finish (f : Flight σ) (outcome : Outcome) : Flight σ :=
  { f with stage := .ended outcome, state := { f.state with cancelled := true } }

/-- The flight has come to this. -/
structure Shows (f : Flight σ) (c : Call) : Prop where
  stage : f.stage = .ended c.outcome
  state : f.state = c.request
  context : f.context = c.context

def isOver (f : Flight σ) : Bool :=
  match f.stage with
  | .ended _ => true
  | _ => false

theorem stage_of_isOver {f : Flight σ} (finished : f.isOver = true) : ∃ outcome, f.stage = .ended outcome := by
  unfold isOver at finished
  split at finished
  · exact ⟨_, ‹_›⟩
  · cases finished

end Flight

/-! ## Traffic -/

/-- All requests there have been, and what they share. -/
structure Traffic (σ : Type) where
  shared : Shared σ
  session : Channel.Session := {}
  contexts : Nat := 0
  flights : List (Flight σ) := []

/-- What may happen next. Flights are numbered in the order in which they arrive. -/
inductive Traffic.Action where
  | arrive (r : Incoming) (arrived : Time)
  | advance (i : Nat)
  /-- Whoever runs the request drops its work. -/
  | giveUp (i : Nat)
  /-- Whoever runs the request cancels it, and its work goes on. -/
  | cancel (i : Nat)
  | tryReceive
  | receive
  | dropReceiver

namespace Traffic

/-- What the work of a flight works on. -/
def world (s : Traffic σ) (f : Flight σ) : World σ :=
  { request := f.state, abandoned := f.cancelled, shared := s.shared }

def set (s : Traffic σ) (i : Nat) (f : Flight σ) : Traffic σ := { s with flights := s.flights.set i f }

/-- One move of the work of the `i`-th flight, or what comes after it. -/
def work (s : Traffic σ) (i : Nat) (f : Flight σ) (t : Task σ Ending) : Option (Traffic σ) :=
  match t with
  | .done (.respond res) => some (s.set i (f.tell res []))
  | .done (.shutdown e) =>
    (Channel.step s.session (.call 0 .terminate)).map fun session =>
      { s with session }.set i { f with stage := .signalling e, call := some s.session.calls.length }
  | .panicked p => some (s.set i (f.finish (.panicked p)))
  | t =>
    (t.move (s.world f)).map fun (t, w) =>
      { s with shared := w.shared }.set i
        { f with state := w.request, seen := f.seen ++ [(s.world f).view], stage := .working t }

/-- One step of the call to signal of the `i`-th flight. Once it has returned, the response is there. -/
def signal (s : Traffic σ) (i : Nat) (f : Flight σ) (e : Failure) : Option (Traffic σ) :=
  match f.call with
  | none => none
  | some k =>
    match s.session.calls[k]? with
    | none => none
    | some c =>
      match c.returned with
      | some first => some (s.set i (f.tell unavailable [signalled f.context e first]))
      | none =>
        (Channel.step s.session (if c.progress = .begun then .swap k else .trySend k)).map fun session =>
          { s with session }

/-- One line of the log, or the answer. -/
def tell (s : Traffic σ) (i : Nat) (f : Flight σ) (res : Response) : List Log.Event → Traffic σ
  | [] => s.set i { f with stage := .ended (.answered res.toWire), state := ⟨some res.status, true⟩ }
  | e :: events =>
    { s with shared.log := s.shared.log ++ [e] }.set i { f with told := f.told ++ [e], stage := .telling res events }

def advance (s : Traffic σ) (i : Nat) (f : Flight σ) : Option (Traffic σ) :=
  match f.stage with
  | .working t => s.work i f t
  | .signalling e => s.signal i f e
  | .telling res events => some (s.tell i f res events)
  | .ended _ => none

def receiver (s : Traffic σ) (a : Channel.Action) : Option (Traffic σ) :=
  (Channel.step s.session a).map fun session => { s with session }

def step (app : App σ) (s : Traffic σ) : Action → Option (Traffic σ)
  | .arrive r arrived =>
    let context : Context := ⟨Context.traceOf s.contexts, arrived⟩
    some { s with contexts := s.contexts + 1
                  flights := s.flights ++ [{ incoming := r, context, stage := .working (app.work context r) }] }
  | .advance i =>
    match s.flights[i]? with
    | none => none
    | some f => s.advance i f
  | .giveUp i =>
    match s.flights[i]? with
    | none => none
    | some f =>
      match f.stage with
      | .working t => if t.yields then some (s.set i (f.finish .abandoned)) else none
      | _ => none
  | .cancel i =>
    match s.flights[i]? with
    | none => none
    | some f => some (s.set i { f with cancelled := true })
  | .tryReceive => s.receiver .tryReceive
  | .receive => s.receiver .receive
  | .dropReceiver => s.receiver .dropReceiver

def run (app : App σ) (s : Traffic σ) : List Action → Option (Traffic σ)
  | [] => some s
  | a :: rest => (step app s a).bind fun s' => run app s' rest

/-- What an application works on beside its routes. -/
def state (s : Traffic σ) : State σ := ⟨s.shared, s.session.channel, s.contexts⟩

theorem run_append {app : App σ} (s : Traffic σ) (as bs : List Action) :
    run app s (as ++ bs) = (run app s as).bind fun s' => run app s' bs := by
  induction as generalizing s with
  | nil => rfl
  | cons a as ih =>
    simp only [List.cons_append, run, Option.bind_assoc]
    congr 1
    funext s'
    exact ih s'

theorem getElem?_set_flight {i : Nat} {s : Traffic σ} {f g : Flight σ} (hf : s.flights[i]? = some f) :
    (s.set i g).flights[i]? = some g :=
  List.getElem?_set_self (List.getElem?_eq_some_iff.mp hf).1

/-- The state in which only the `i`-th flight and what is shared have changed. -/
def changed (s : Traffic σ) (i : Nat) (f : Flight σ) (shared : Shared σ) (session : Channel.Session) : Traffic σ :=
  { s with shared, session }.set i f

theorem changed_changed {i : Nat} (s : Traffic σ) (f g : Flight σ) (shared shared' : Shared σ)
    (session session' : Channel.Session) :
    (s.changed i f shared session).changed i g shared' session' = s.changed i g shared' session' := by
  simp only [changed, set, List.set_set]

theorem changed_self {i : Nat} {s : Traffic σ} {f : Flight σ} (hf : s.flights[i]? = some f) :
    s.changed i f s.shared s.session = s := by
  obtain ⟨hi, rfl⟩ := List.getElem?_eq_some_iff.mp hf
  simp only [changed, set, List.set_getElem_self]

end Traffic

end App

end JsonService
