import JsonService.Proofs.Layers.Outcome

/-!
# Paths through layers

A task that runs by itself takes one path, and one that takes turns with others may take many: which one depends on
what it sees at each move. What is said of every path of a task holds however requests are interleaved.

**Paths.** `t.Path vs es x` says that the task, if it sees `vs`, takes the effects `es` and comes to `x`.
**Certain tasks.** `t.Surely names x` says that every path counts these names and comes to `x`.

**Results.**
* `exists_path`, `Path.result?`: a task that has come to something has taken a path, and it comes to the end of it.
* `path_bind`, `path_catchPanic`, `path_within`: a path through composed tasks has parts.
* `path_stack`: a path through built-in layers goes through the handler inside of them; what the layers count is told
  by what the handler comes to.
-/
namespace JsonService

variable {σ α β : Type}

def Effect.counted? : Effect σ → Option String
  | .count name => some name
  | _ => none

def counted (effects : List (Effect σ)) : List String := effects.filterMap Effect.counted?

theorem counted_cons (effect : Effect σ) (es : List (Effect σ)) :
    counted (effect :: es) = effect.counted?.toList ++ counted es := by
  simp only [counted, List.filterMap_cons]
  cases effect.counted? <;> rfl

theorem counted_append (es₁ es₂ : List (Effect σ)) : counted (es₁ ++ es₂) = counted es₁ ++ counted es₂ :=
  List.filterMap_append

namespace Task

/-- If it sees these views, the task takes these effects and comes to this. -/
inductive Path : Task σ α → List (View σ) → List (Effect σ) → Except Panic α → Prop
  | done : Path (.done a) [] [] (.ok a)
  | panicked : Path (.panicked p) [] [] (.error p)
  | step (v : View σ) : Path (next v) vs es x → Path (.step effect next) (v :: vs) (effect :: es) x
  | pause (v : View σ) : Path next vs es x → Path (.pause next) (v :: vs) es x
  | await (v : View σ) : ready v = true → Path next vs es x → Path (.await ready next) (v :: vs) es x

/-- The names that a task has counted by the time it has had these views. -/
def counts : Task σ α → List (View σ) → List String
  | .step effect next, v :: vs => effect.counted?.toList ++ (next v).counts vs
  | .pause next, _ :: vs => next.counts vs
  | .await _ next, _ :: vs => next.counts vs
  | _, _ => []

section
variable {t : Task σ α} {vs : List (View σ)} {es : List (Effect σ)} {x : Except Panic α}

/-- A task that has come to something has taken a path. -/
theorem exists_path {u : Task σ α} (seen : t.after vs = some u) (finished : u.result? [] = some x) :
    ∃ es, t.Path vs es x := by
  induction vs generalizing t with
  | nil =>
    rw [after_nil, Option.some.injEq] at seen
    subst seen
    cases t with
    | done a => exact ⟨[], Option.some.inj finished ▸ .done⟩
    | panicked p => exact ⟨[], Option.some.inj finished ▸ .panicked⟩
    | step | pause | await => cases finished
  | cons v vs ih =>
    cases t with
    | done | panicked => cases seen
    | step effect next =>
      obtain ⟨es, path⟩ := ih (t := next v) seen
      exact ⟨effect :: es, .step v path⟩
    | pause next =>
      obtain ⟨es, path⟩ := ih (t := next) seen
      exact ⟨es, .pause v path⟩
    | await ready next =>
      simp only [after] at seen
      split at seen
      · next hready =>
        obtain ⟨es, path⟩ := ih seen
        exact ⟨es, .await v hready path⟩
      · cases seen

theorem Path.result? (path : t.Path vs es x) (ws : List (View σ)) : t.result? (vs ++ ws) = some x := by
  induction path with
  | done | panicked => rfl
  | step _ _ ih => exact ih
  | pause _ _ ih => exact ih
  | await _ hready _ ih =>
    rw [List.cons_append, Task.result?, if_pos hready]
    exact ih

theorem Path.counts_eq (path : t.Path vs es x) : t.counts vs = counted es := by
  induction path with
  | done | panicked => rfl
  | step _ _ ih =>
    rw [counts, ih, counted_cons]
  | pause _ _ ih => exact ih
  | await _ _ _ ih => exact ih

/-! ## Paths through composed tasks -/

/-- A path through a task and more work: the one through the task, and the one through the work unless the task has
panicked. -/
theorem path_bind {f : α → Task σ β} {y : Except Panic β} (path : (t.bind f).Path vs es y) :
    ∃ vs₁ vs₂ es₁ es₂ x, vs = vs₁ ++ vs₂ ∧ es = es₁ ++ es₂ ∧ t.Path vs₁ es₁ x ∧
      match x with
      | .ok a => (f a).Path vs₂ es₂ y
      | .error p => vs₂ = [] ∧ es₂ = [] ∧ y = .error p := by
  induction t generalizing vs es with
  | done a => exact ⟨[], vs, [], es, .ok a, rfl, rfl, .done, path⟩
  | panicked p =>
    cases path
    exact ⟨[], [], [], [], .error p, rfl, rfl, .panicked, rfl, rfl, rfl⟩
  | step effect next ih =>
    cases path with
    | step v path =>
      obtain ⟨vs₁, vs₂, es₁, es₂, x, rfl, rfl, first, rest⟩ := ih v path
      exact ⟨v :: vs₁, vs₂, effect :: es₁, es₂, x, rfl, rfl, .step v first, rest⟩
  | pause next ih =>
    cases path with
    | pause v path =>
      obtain ⟨vs₁, vs₂, es₁, es₂, x, rfl, rfl, first, rest⟩ := ih path
      exact ⟨v :: vs₁, vs₂, es₁, es₂, x, rfl, rfl, .pause v first, rest⟩
  | await ready next ih =>
    cases path with
    | await v hready path =>
      obtain ⟨vs₁, vs₂, es₁, es₂, x, rfl, rfl, first, rest⟩ := ih path
      exact ⟨v :: vs₁, vs₂, es₁, es₂, x, rfl, rfl, .await v hready first, rest⟩

theorem path_catchPanic {y : Except Panic (Except Panic α)} (path : t.catchPanic.Path vs es y) :
    ∃ x, t.Path vs es x ∧ y = .ok x := by
  induction t generalizing vs es with
  | done a =>
    cases path
    exact ⟨.ok a, .done, rfl⟩
  | panicked p =>
    cases path
    exact ⟨.error p, .panicked, rfl⟩
  | step effect next ih =>
    cases path with
    | step v path =>
      obtain ⟨x, inner, rfl⟩ := ih v path
      exact ⟨x, .step v inner, rfl⟩
  | pause next ih =>
    cases path with
    | pause v path =>
      obtain ⟨x, inner, rfl⟩ := ih path
      exact ⟨x, .pause v inner, rfl⟩
  | await ready next ih =>
    cases path with
    | await v hready path =>
      obtain ⟨x, inner, rfl⟩ := ih path
      exact ⟨x, .await v hready inner, rfl⟩

theorem counted?_inSpan (span : Log.Span) (effect : Effect σ) : (inSpan span effect).counted? = effect.counted? := by
  cases effect <;> rfl

theorem path_within {span : Log.Span} (path : (t.within span).Path vs es x) :
    ∃ es', t.Path vs es' x ∧ counted es = counted es' := by
  induction t generalizing vs es with
  | done a =>
    cases path
    exact ⟨[], .done, rfl⟩
  | panicked p =>
    cases path
    exact ⟨[], .panicked, rfl⟩
  | step effect next ih =>
    cases path with
    | step v path =>
      obtain ⟨es', path, same⟩ := ih v path
      exact ⟨effect :: es', .step v path, by rw [counted_cons, counted_cons, counted?_inSpan, same]⟩
  | pause next ih =>
    cases path with
    | pause v path =>
      obtain ⟨es', path, same⟩ := ih path
      exact ⟨es', .pause v path, same⟩
  | await ready next ih =>
    cases path with
    | await v hready path =>
      obtain ⟨es', path, same⟩ := ih path
      exact ⟨es', .await v hready path, same⟩

end

/-! ## Tasks whose paths all count the same -/

/-- Every path through the task counts these names and comes to this. -/
def Surely (names : List String) (x : Except Panic α) (t : Task σ α) : Prop :=
  ∀ vs es y, t.Path vs es y → counted es = names ∧ y = x

theorem surely_done (a : α) : Surely [] (.ok a) (.done a : Task σ α) := by
  intro vs es y path
  cases path
  exact ⟨rfl, rfl⟩

section
variable {names : List String} {x : Except Panic α} {next : View σ → Task σ α} (sure : ∀ v, Surely names x (next v))
include sure

theorem Surely.quiet {effect : Effect σ} (none : effect.counted? = none) : Surely names x (.step effect next) := by
  intro vs es y path
  cases path with
  | step v path =>
    obtain ⟨rfl, rfl⟩ := sure v _ _ _ path
    exact ⟨by rw [counted_cons, none]; rfl, rfl⟩

theorem Surely.count (name : String) : Surely (name :: names) x (.step (.count name) next) := by
  intro vs es y path
  cases path with
  | step v path =>
    obtain ⟨rfl, rfl⟩ := sure v _ _ _ path
    exact ⟨rfl, rfl⟩

end

/-! ## Tasks that go through a handler -/

/-- After `n` moves the task makes those of another one, and what that one comes to tells what this one comes to and
what it counts beside. -/
def Through (n : Nat) (names : Except Panic α → List String) (on : Except Panic α → Except Panic β)
    (t : Task σ β) (inner : Task σ α) : Prop :=
  ∀ vs es x, t.Path vs es x → ∃ first vs' last es' y, vs = first ++ vs' ++ last ∧ first.length = n ∧
    inner.Path vs' es' y ∧ x = on y ∧ (counted es).Perm (names y ++ counted es')

namespace Through

section
variable {n m : Nat} {names : Except Panic α → List String} {on : Except Panic α → Except Panic β} {t : Task σ β}
  {inner : Task σ α}

theorem refl (t : Task σ α) : Through 0 (fun _ => []) id t t :=
  fun vs es x path => ⟨[], vs, [], es, x, by simp, rfl, path, rfl, .refl _⟩

theorem step {effect : Effect σ} {next : View σ → Task σ β} (h : ∀ v, Through n names on (next v) inner) :
    Through (n + 1) (fun y => effect.counted?.toList ++ names y) on (.step effect next) inner := by
  intro vs es x path
  cases path with
  | step v path =>
    obtain ⟨first, vs', last, es', y, rfl, rfl, inside, rfl, perm⟩ := h v _ _ _ path
    refine ⟨v :: first, vs', last, es', y, rfl, rfl, inside, rfl, ?_⟩
    rw [counted_cons, List.append_assoc]
    exact perm.append_left _

theorem pause {next : Task σ β} (h : Through n names on next inner) :
    Through (n + 1) names on (.pause next) inner := by
  intro vs es x path
  cases path with
  | pause v path =>
    obtain ⟨first, vs', last, es', y, rfl, rfl, inside, rfl, perm⟩ := h _ _ _ path
    exact ⟨v :: first, vs', last, es', y, rfl, rfl, inside, rfl, perm⟩

theorem bind {γ : Type} {f : β → Task σ γ} (more : β → List String) (g : β → Except Panic γ)
    (sure : ∀ b, Surely (more b) (g b) (f b)) (h : Through n names on t inner) :
    Through n (fun y => names y ++ (on y).toOption.elim [] more) (fun y => (on y).bind g) (t.bind f) inner := by
  intro vs es x path
  obtain ⟨vs₁, vs₂, es₁, es₂, z, rfl, rfl, path₁, rest⟩ := path_bind path
  obtain ⟨first, vs', last, es', y, rfl, rfl, inside, rfl, perm⟩ := h _ _ _ path₁
  refine ⟨first, vs', last ++ vs₂, es', y, by simp, rfl, inside, ?_⟩
  rw [counted_append]
  cases came : on y with
  | ok b =>
    rw [came] at rest
    obtain ⟨names, rfl⟩ := sure b _ _ _ rest
    simp only [came]
    refine ⟨rfl, ?_⟩
    rw [names, List.append_assoc]
    exact (perm.append_right _).trans
      (by rw [List.append_assoc]; exact List.perm_append_comm.append_left _)
  | error p =>
    rw [came] at rest
    obtain ⟨-, rfl, rfl⟩ := rest
    simp only [came]
    refine ⟨rfl, ?_⟩
    simpa [counted, Except.toOption] using perm

theorem catchPanic (h : Through n names on t inner) :
    Through n names (fun y => .ok (on y)) t.catchPanic inner := by
  intro vs es x path
  obtain ⟨z, uncaught, rfl⟩ := path_catchPanic path
  obtain ⟨first, vs', last, es', y, rfl, rfl, inside, rfl, perm⟩ := h _ _ _ uncaught
  exact ⟨first, vs', last, es', y, rfl, rfl, inside, rfl, perm⟩

theorem within (span : Log.Span) (h : Through n names on t inner) : Through n names on (t.within span) inner := by
  intro vs es x path
  obtain ⟨es₁, plain, same⟩ := path_within path
  obtain ⟨first, vs', last, es', y, rfl, rfl, inside, rfl, perm⟩ := h _ _ _ plain
  exact ⟨first, vs', last, es', y, rfl, rfl, inside, rfl, same ▸ perm⟩

theorem trans {γ : Type} {names' : Except Panic γ → List String} {on' : Except Panic γ → Except Panic α}
    {core : Task σ γ} (h : Through n names on t inner) (h' : Through m names' on' inner core) :
    Through (n + m) (fun y => names (on' y) ++ names' y) (fun y => on (on' y)) t core := by
  intro vs es x path
  obtain ⟨first, vs₁, last, es₁, y, rfl, rfl, inside, rfl, perm⟩ := h _ _ _ path
  obtain ⟨first', vs₂, last', es₂, z, rfl, rfl, inside', rfl, perm'⟩ := h' _ _ _ inside
  refine ⟨first ++ first', vs₂, last' ++ last, es₂, z, by simp, by simp, inside', rfl, ?_⟩
  rw [List.append_assoc]
  exact perm.trans (perm'.append_left _)

theorem congr {names' : Except Panic α → List String} {on' : Except Panic α → Except Panic β}
    (h : Through n names on t inner) (same : ∀ y, names y = names' y ∧ on y = on' y) :
    Through n names' on' t inner := by
  obtain rfl : names = names' := funext fun y => (same y).1
  obtain rfl : on = on' := funext fun y => (same y).2
  exact h

end

end Through

end Task

/-! ## Built-in layers -/

/-- What a built-in layer makes of what the handler inside of it comes to. -/
def Builtin.onEnd : Builtin → Except Panic Result → Except Panic Result
  | .errors, .ok (.error e) => .ok e.rendered
  | .panics, .error p => .ok (.error p.failure)
  | _, x => x

/-- The names that a built-in layer counts, by what the handler inside of it comes to. -/
def Builtin.counted : Builtin → Except Panic Result → List String
  | .metrics, .ok (.error _) => [Counters.requests, Counters.errors]
  | .metrics, _ => [Counters.requests]
  | .panics, .error _ => [Counters.panics]
  | _, _ => []

/-- What built-in layers make of what the handler inside of them comes to. -/
def onEnd (stack : List Builtin) (x : Except Panic Result) : Except Panic Result := stack.foldr Builtin.onEnd x

/-- The names that built-in layers count, by what the handler inside of them comes to. -/
def countedAround : List Builtin → Except Panic Result → List String
  | [], _ => []
  | b :: stack, x => b.counted (onEnd stack x) ++ countedAround stack x

def Handler.wrapped (stack : List Builtin) (h : Handler σ) : Handler σ :=
  stack.foldr (fun b next => Handler.recorded (b.layer next)) h

section
variable (h : Handler σ) (ctx : Context) (req : Request)

theorem through_recorded :
    Task.Through 0 (fun _ => []) id (Handler.recorded h ctx req) (h ctx req) := by
  refine (Task.Through.bind (fun _ => []) .ok (fun r => ?_) (.refl _)).congr fun y => ?_
  · cases r with
    | ok res => exact .quiet (fun _ => Task.surely_done _) rfl
    | error e => exact Task.surely_done _
  · cases y <;> exact ⟨rfl, rfl⟩

theorem through_layer (b : Builtin) :
    Task.Through (entering [b]) b.counted b.onEnd (b.layer h ctx req) (h ctx req) := by
  cases b with
  | logger =>
    simp only [Builtin.layer, Layers.logger, Task.log, Task.perform, Task.look, Task.bind_eq, Task.bind]
    refine .congr (.step fun _ => .bind (fun _ => []) .ok (fun r => ?_) (.refl _)) fun y => ?_
    · exact .quiet (fun _ => .quiet (fun _ => Task.surely_done r) rfl) rfl
    · cases y <;> exact ⟨rfl, rfl⟩
  | errors =>
    refine .congr (.bind (fun _ => []) (fun r => (Builtin.errors.onEnd (.ok r))) (fun r => ?_) (.refl _)) fun y => ?_
    · cases r with
      | ok res => exact Task.surely_done _
      | error e =>
        simp only [Builtin.onEnd, Failure.rendered]
        cases e.isShutdown with
        | true => exact .quiet (fun _ => .quiet (fun _ => Task.surely_done _) rfl) rfl
        | false =>
          simp only [Bool.false_eq_true, if_false]
          cases e.status.isServerError <;>
            exact .quiet (fun _ => .quiet (fun _ => Task.surely_done _) rfl) rfl
    · cases y <;> exact ⟨rfl, rfl⟩
  | metrics =>
    simp only [Builtin.layer, Layers.metrics, Task.count, Task.perform, Task.bind_eq, Task.bind]
    refine .congr (.step fun _ => .bind (fun r => (Builtin.metrics.counted (.ok r)).drop 1) .ok (fun r => ?_) (.refl _))
      fun y => ?_
    · cases r with
      | ok res => exact Task.surely_done _
      | error e => exact .count (fun _ => Task.surely_done _) _
    · rcases y with p | e | res <;> exact ⟨rfl, rfl⟩
  | panics =>
    refine .congr (.bind (fun r => Builtin.panics.counted r) (fun r => Builtin.panics.onEnd r) (fun r => ?_)
      (.catchPanic (.refl _))) fun y => ?_
    · cases r with
      | ok result => exact Task.surely_done _
      | error p => exact .count (fun _ => .quiet (fun _ => Task.surely_done _) rfl) _
    · cases y <;> exact ⟨rfl, rfl⟩

/-- What built-in layers count, and what they make of the end, is told by what the handler inside of them comes to. -/
theorem through_wrapped (stack : List Builtin) :
    Task.Through (entering stack) (countedAround stack) (onEnd stack) (h.wrapped stack ctx req) (h ctx req) := by
  induction stack with
  | nil => exact .refl _
  | cons b stack ih =>
    have outermost := (through_recorded _ ctx req).trans ((through_layer (h.wrapped stack) ctx req b).trans ih)
    have split : 0 + (entering [b] + entering stack) = entering (b :: stack) := by
      rw [Nat.zero_add, entering, entering, entering, ← List.countP_append, List.singleton_append]
    rw [split] at outermost
    exact outermost.congr fun y => ⟨rfl, rfl⟩

end

end JsonService
