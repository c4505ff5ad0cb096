import JsonService.Http.Status
import JsonService.Log.Event
import JsonService.Metrics

/-!
# Tasks

Work on a request that may take effect, pause and wait, and that may panic. A task is a tree of its next
steps: each step takes one effect and goes on with what was seen just before it, so several tasks may take
turns at any step. The effects are those that the code of a service has; signalling a shutdown is not one
of them.
-/
namespace JsonService

/-- What a panic leaves behind. -/
inductive Panic where
  | text (s : String)
  /-- Something that is no text. -/
  | other
  deriving DecidableEq, Repr

/-- The words for a panic. -/
def Panic.message : Panic → String
  | .text s => s
  | .other => "unknown panic payload"

/-- What everyone shares who works on one request. Models `RequestValues`. -/
structure RequestState where
  /-- The status of the last response that was made. -/
  status : Option Status := none
  /-- Whether the request itself was cancelled. -/
  cancelled : Bool := false
  deriving DecidableEq, Repr

/-- What all requests share: the counters, the log, and the state of the service. -/
structure Shared (σ : Type) where
  counters : Counters := []
  log : List Log.Event := []
  service : σ

/-- All that a task works on. -/
structure World (σ : Type) where
  request : RequestState := {}
  /-- Whether whoever runs the request has given it up. -/
  abandoned : Bool := false
  shared : Shared σ

/-- What a task sees of it. -/
structure View (σ : Type) where
  status : Option Status
  cancelled : Bool
  counters : Counters
  service : σ

/-- What a task sees at this moment. A request is cancelled when it was cancelled itself or given up. -/
def World.view (w : World σ) : View σ :=
  ⟨w.request.status, w.request.cancelled || w.abandoned, w.shared.counters, w.shared.service⟩

inductive Effect (σ : Type) where
  /-- None, only a look. -/
  | look
  /-- Records the status of a response. -/
  | record (status : Status)
  /-- Adds one to a counter. -/
  | count (name : String)
  | log (event : Log.Event)
  /-- Cancels the request. -/
  | cancel
  /-- Changes the state of the service. -/
  | update (change : σ → σ)

/-- The world after an effect. -/
def Effect.apply (w : World σ) : Effect σ → World σ
  | .look => w
  | .record status => { w with request.status := some status }
  | .count name => { w with shared.counters := w.shared.counters.increment name }
  | .log event => { w with shared.log := w.shared.log ++ [event] }
  | .cancel => { w with request.cancelled := true }
  | .update change => { w with shared.service := change w.shared.service }

/-- Work that ends with a value or a panic. -/
inductive Task (σ α : Type) where
  | done (a : α)
  | panicked (p : Panic)
  /-- Takes an effect and goes on with what was seen just before. -/
  | step (effect : Effect σ) (next : View σ → Task σ α)
  /-- Lets others go first. -/
  | pause (next : Task σ α)
  /-- Waits until something is the case. -/
  | await (ready : View σ → Bool) (next : Task σ α)

namespace Task

def bind : Task σ α → (α → Task σ β) → Task σ β
  | .done a, f => f a
  | .panicked p, _ => .panicked p
  | .step effect next, f => .step effect fun v => (next v).bind f
  | .pause next, f => .pause (next.bind f)
  | .await ready next, f => .await ready (next.bind f)

instance : Monad (Task σ) where
  pure := .done
  bind := .bind

/-- Nothing more leaves a task as it is. -/
theorem bind_done (t : Task σ α) : t.bind .done = t := by
  induction t with
  | done | panicked => rfl
  | step effect next ih => simp [bind, ih]
  | pause next ih => simp [bind, ih]
  | await ready next ih => simp [bind, ih]

/-- More work after more work. -/
theorem bind_assoc (t : Task σ α) (f : α → Task σ β) (g : β → Task σ γ) :
    (t.bind f).bind g = t.bind fun a => (f a).bind g := by
  induction t with
  | done | panicked => rfl
  | step effect next ih => simp [bind, ih]
  | pause next ih => simp [bind, ih]
  | await ready next ih => simp [bind, ih]

instance : LawfulMonad (Task σ) := .mk' (Task σ) bind_done (fun _ _ => rfl) bind_assoc

/-- The work of a task, which never panics but says so. -/
def catchPanic : Task σ α → Task σ (Except Panic α)
  | .done a => .done (.ok a)
  | .panicked p => .done (.error p)
  | .step effect next => .step effect fun v => (next v).catchPanic
  | .pause next => .pause next.catchPanic
  | .await ready next => .await ready next.catchPanic

def inSpan (span : Log.Span) : Effect σ → Effect σ
  | .log event => .log { event with span := some (event.span.getD span) }
  | effect => effect

/-- The work of a task, with its events in a span. -/
def within (span : Log.Span) : Task σ α → Task σ α
  | .done a => .done a
  | .panicked p => .panicked p
  | .step effect next => .step (inSpan span effect) fun v => (next v).within span
  | .pause next => .pause (next.within span)
  | .await ready next => .await ready (next.within span)

def perform (effect : Effect σ) : Task σ Unit := .step effect fun _ => .done ()

def look : Task σ (View σ) := .step .look .done

def record (status : Status) : Task σ Unit := perform (.record status)

def count (name : String) : Task σ Unit := perform (.count name)

def log (level : Log.Level) (message : String) (fields : Log.Fields := []) : Task σ Unit :=
  perform (.log { level, message, fields })

/-- Changes the state of the service and gives what `f` finds in it, both at once. -/
def update (f : σ → β × σ) : Task σ β :=
  .step (.update fun s => (f s).2) fun v => .done (f v.service).1

/-- How a run of a task ends. -/
inductive Fate (α : Type) where
  | returned (a : α)
  | panicked (p : Panic)
  /-- The task waits for something, or has let others go first. -/
  | suspended

/-- Runs a task by itself until it ends or waits for something that is not the case. -/
def run : Task σ α → World σ → Fate α × World σ
  | .done a, w => (.returned a, w)
  | .panicked p, w => (.panicked p, w)
  | .step effect next, w => (next w.view).run (effect.apply w)
  | .pause next, w => next.run w
  | .await ready next, w => if ready w.view then next.run w else (.suspended, w)

/-- Runs a task until it lets others go first for the first time. -/
def poll : Task σ α → World σ → Fate α × World σ
  | .done a, w => (.returned a, w)
  | .panicked p, w => (.panicked p, w)
  | .step effect next, w => (next w.view).poll (effect.apply w)
  | .pause _, w => (.suspended, w)
  | .await ready next, w => if ready w.view then next.poll w else (.suspended, w)

/-- A run of a task and of the work after it. -/
theorem run_bind (t : Task σ α) (f : α → Task σ β) (w : World σ) :
    (t.bind f).run w = match t.run w with
      | (.returned a, w) => (f a).run w
      | (.panicked p, w) => (.panicked p, w)
      | (.suspended, w) => (.suspended, w) := by
  induction t generalizing w with
  | done | panicked => rfl
  | step effect next ih => simp [bind, run, ih]
  | pause next ih => simp [bind, run, ih]
  | await ready next ih =>
    simp only [bind, run]
    split
    · exact ih w
    · rfl

/-- A run of a task whose panics are caught. -/
theorem run_catchPanic (t : Task σ α) (w : World σ) :
    t.catchPanic.run w = match t.run w with
      | (.returned a, w) => (.returned (.ok a), w)
      | (.panicked p, w) => (.returned (.error p), w)
      | (.suspended, w) => (.suspended, w) := by
  induction t generalizing w with
  | done | panicked => rfl
  | step effect next ih => simp [catchPanic, run, ih]
  | pause next ih => simp [catchPanic, run, ih]
  | await ready next ih =>
    simp only [catchPanic, run]
    split
    · exact ih w
    · rfl

end Task

end JsonService
