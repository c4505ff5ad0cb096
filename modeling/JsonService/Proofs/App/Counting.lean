import JsonService.Proofs.App.Flights
import JsonService.Proofs.App.Turns
import JsonService.Proofs.Layers.Paths
import JsonService.Proofs.Metrics.Table

/-!
# What the counters tell

Within the usual layers three counters are kept: requests, errors and panics. They are counted in different layers and
at different moments, and requests side by side count in between each other. Once all requests are over, the counters
tell exactly what has become of them.

**Parts.** The work on a request that finds a route has an own part, the route's handler within the route's layers,
and a metered part around it, which is what the layer for metrics sees: it comes to a failure also if the own part
panics.

**Results.**
* `tallied_run`: at any moment of any run each counter is what the requests have counted, each as far as it has come.
* `own_and_metered`, `counts_kept`: what a request has counted when its work is over.
* `Flight.Sound.completed`: what a request has come to that is completed.
* `counters_account`: when all requests are over, the counters are the numbers of those that found a route, of those
  whose metered part failed, and of those whose own part panicked.
* `table_accounts`: so are the words of a hash table that counts the same names, if there were fewer than 2 ^ 64
  requests.
-/
namespace JsonService

variable {σ α β : Type}

/-! ## Handlers that leave some counters alone -/

def Counters.kept : List String := [requests, errors, panics]

namespace Task

/-- The task counts none of these names. -/
inductive Spares (names : List String) : Task σ α → Prop
  | done : Spares names (.done a)
  | panicked : Spares names (.panicked p)
  | step : (∀ name ∈ effect.counted?, name ∉ names) → (∀ v, Spares names (next v)) → Spares names (.step effect next)
  | pause : Spares names next → Spares names (.pause next)
  | await : Spares names next → Spares names (.await ready next)

section
variable {names : List String} {t : Task σ α}

theorem Spares.bind {f : α → Task σ β} (h : t.Spares names) (hf : ∀ a, (f a).Spares names) :
    (t.bind f).Spares names := by
  induction h with
  | done => exact hf _
  | panicked => exact .panicked
  | step spares _ ih => exact .step spares ih
  | pause _ ih => exact .pause ih
  | await _ ih => exact .await ih

theorem Spares.notMem (h : t.Spares names) {vs : List (View σ)} {es : List (Effect σ)} {x : Except Panic α}
    (path : t.Path vs es x) : ∀ name ∈ names, name ∉ counted es := by
  induction path with
  | done | panicked => simp [counted]
  | @step _ _ _ _ effect v _ ih =>
    cases h with
    | step spares hnext =>
      intro name kept
      rw [counted_cons, List.mem_append, Option.mem_toList]
      rintro (here | later)
      · exact spares name here kept
      · exact ih (hnext v) name kept later
  | pause _ _ ih =>
    cases h with
    | pause h => exact ih h
  | await _ _ _ ih =>
    cases h with
    | await h => exact ih h

/-- One move adds to the counters what the task counts then. -/
theorem counts_move {u : Task σ α} {w w' : World σ} (h : t.move w = some (u, w')) :
    w'.shared.counters = w.shared.counters.after (t.counts [w.view]) := by
  cases t with
  | done | panicked => cases h
  | step effect next =>
    simp only [move, Option.some.injEq, Prod.mk.injEq] at h
    rw [← h.2]
    have last : (next w.view).counts [] = [] := by cases next w.view <;> rfl
    rw [counts, last]
    cases effect <;> rfl
  | pause next =>
    simp only [move, Option.some.injEq, Prod.mk.injEq] at h
    rw [← h.2]
    cases next <;> rfl
  | await ready next =>
    simp only [move] at h
    split at h
    · simp only [Option.some.injEq, Prod.mk.injEq] at h
      rw [← h.2]
      cases next <;> rfl
    · cases h

theorem counts_append {u : Task σ α} {vs : List (View σ)} (seen : t.after vs = some u) (ws : List (View σ)) :
    t.counts (vs ++ ws) = t.counts vs ++ u.counts ws := by
  induction vs generalizing t with
  | nil =>
    rw [after_nil, Option.some.injEq] at seen
    subst seen
    cases t <;> rfl
  | cons v vs ih =>
    cases t with
    | done | panicked => cases seen
    | step effect next =>
      rw [List.cons_append, counts, counts, ih (t := next v) seen, List.append_assoc]
    | pause next => exact ih (t := next) seen
    | await ready next =>
      simp only [after] at seen
      split at seen
      · exact ih seen
      · cases seen

end

end Task

/-- The handler counts none of these names, whatever the request. -/
def Handler.Spares (names : List String) (h : Handler σ) : Prop := ∀ ctx req, (h ctx req).Spares names

/-- The layer counts none of these names itself. -/
def Layer.Spares (names : List String) (layer : Layer σ) : Prop :=
  ∀ h, Handler.Spares names h → Handler.Spares names (layer h)

section
variable {names : List String} {h : Handler σ} (spares : h.Spares names)
include spares

theorem spares_recorded : Handler.Spares names (Handler.recorded h) := by
  intro ctx req
  refine (spares ctx req).bind fun r => ?_
  cases r with
  | ok res => exact .step (by simp [Effect.counted?]) fun _ => .done
  | error e => exact .done

theorem spares_within {layers : List (Layer σ)} (all : ∀ layer ∈ layers, Layer.Spares names layer) :
    Handler.Spares names (h.within layers) := by
  induction layers with
  | nil => exact spares_recorded spares
  | cons layer layers ih =>
    obtain ⟨first, rest⟩ := List.forall_mem_cons.mp all
    exact spares_recorded (first _ (ih rest))

end

namespace App

/-! ## Counters along a run -/

/-- The names that the work on a request has counted so far. -/
def Flight.counts (app : App σ) (f : Flight σ) : List String := (app.work f.context f.incoming).counts f.seen

theorem Flight.counts_unseen {app : App σ} {f : Flight σ} (unseen : f.seen = []) : f.counts app = [] := by
  rw [Flight.counts, unseen]
  rfl

namespace Traffic

/-- Each counter is what the flights have counted. -/
def Tallied (app : App σ) (counters : Counters) (flights : List (Flight σ)) : Prop :=
  ∀ name, counters.get name = (flights.flatMap (Flight.counts app)).count name

section
variable {app : App σ} {s s' : Traffic σ} {i : Nat} {f g : Flight σ} {counters counters' : Counters}
  {flights : List (Flight σ)}

theorem tallied_set (added : List String) (tallied : Tallied app counters flights) (hf : flights[i]? = some f)
    (hg : g.counts app = f.counts app ++ added)
    (hc : ∀ name, counters'.get name = counters.get name + added.count name) :
    Tallied app counters' (flights.set i g) := by
  intro name
  rw [hc, tallied name, ← (flatMap_set_perm (Flight.counts app) hf hg).count_eq, List.count_append]

theorem tallied_put (tallied : Tallied app counters flights) (hf : flights[i]? = some f)
    (same : g.context = f.context ∧ g.incoming = f.incoming ∧ g.seen = f.seen) :
    Tallied app counters (flights.set i g) := by
  obtain ⟨context, incoming, seen⟩ := same
  refine tallied_set [] tallied hf ?_ fun name => by simp
  rw [Flight.counts, Flight.counts, context, incoming, seen, List.append_nil]

/-- Every step keeps the counters in step with the flights. -/
theorem Turn.tallied (h : Turn app s s') (I : Inv app s) (tallied : Tallied app s.shared.counters s.flights) :
    Tallied app s'.shared.counters s'.flights := by
  cases h with
  | arrive contexts ctx r =>
    intro name
    rw [List.flatMap_append, List.flatMap_singleton, Flight.counts_unseen rfl, List.append_nil]
    exact tallied name
  | channel session => exact tallied
  | move hf hstage hmove =>
    have sound := I.sound _ (List.mem_of_getElem? hf)
    simp only [Flight.Sound, hstage] at sound
    refine tallied_set _ tallied hf (Task.counts_append sound.1 _) fun name => ?_
    exact (congrArg (Counters.get name) (Task.counts_move hmove)).trans (Counters.get_after _ _ _)
  | put session hf stays told => exact tallied_put tallied hf ⟨stays.context, stays.incoming, stays.seen⟩

theorem Turn.counted (h : Turn app s s') : ∃ names, s'.shared.counters = s.shared.counters.after names := by
  cases h with
  | arrive | channel | put => exact ⟨[], rfl⟩
  | move _ _ hmove => exact ⟨_, Task.counts_move hmove⟩

theorem counted_run {as : List Action} (h : run app s as = some s') :
    ∃ names, s'.shared.counters = s.shared.counters.after names := by
  induction as generalizing s with
  | nil =>
    rw [run, Option.some.injEq] at h
    exact ⟨[], by rw [h]; rfl⟩
  | cons a as ih =>
    rw [run, Option.bind_eq_some_iff] at h
    obtain ⟨s₁, h₁, h₂⟩ := h
    obtain ⟨first, hfirst⟩ := (step_turn h₁).counted
    obtain ⟨rest, hrest⟩ := ih h₂
    exact ⟨first ++ rest, by rw [hrest, hfirst, Counters.after, Counters.after, Counters.after, List.foldl_append]⟩

/-- In every run the counters are what the flights have counted, each as far as it has come. -/
theorem tallied_run {as : List Action} (I : Inv app s) (tallied : Tallied app s.shared.counters s.flights)
    (h : run app s as = some s') : Tallied app s'.shared.counters s'.flights := by
  induction as generalizing s with
  | nil =>
    rw [run, Option.some.injEq] at h
    exact h ▸ tallied
  | cons a as ih =>
    rw [run, Option.bind_eq_some_iff] at h
    obtain ⟨s₁, h₁, h₂⟩ := h
    exact ih ((step_goes I h₁).inv I) ((step_turn h₁).tallied I tallied) h₂

end

end Traffic

/-! ## What a request counts -/

/-- What a request finds in a table: what its route leads to, and the request as a handler sees it, once its body has
been read. -/
def found? (table : Route.Table β) (r : Incoming) : Option (β × Request) :=
  match Method.ofName? r.method with
  | none => none
  | some method =>
    match table.lookup method r.target.path with
    | .found v params =>
      match r.body.collect with
      | .ok body => some (v, { method, target := r.target, headers := r.headers, body, params })
      | .error _ => none
    | _ => none

theorem finds_of_found? {table : Route.Table β} {r : Incoming} {v : β} {req : Request}
    (h : found? table r = some (v, req)) : Finds table r v req := by
  unfold found? at h
  split at h
  · cases h
  split at h
  · split at h
    · cases h
      exact ⟨‹_›, ‹_›, ‹_›, rfl, rfl, rfl⟩
    · cases h
  · cases h

/-! ### A request that finds no route -/

section
variable {app : App σ} {table : Route.Table β} {g : β → Handler σ} (routes : app.routes = table.map g)
  (ctx : Context) {r : Incoming}

theorem surely_settle (result : Result) :
    Task.Surely (σ := σ) [] (.ok (Ending.ofResult result)) (settle ctx result) := by
  cases result with
  | ok res => exact Task.surely_done _
  | error e =>
    simp only [settle, Ending.ofResult]
    cases e.isShutdown with
    | true => exact Task.surely_done _
    | false => exact .quiet (fun _ => .quiet (fun _ => Task.surely_done _) rfl) rfl

include routes

/-- A request that finds no route is answered, and nothing is counted. -/
theorem surely_lost (lost : found? table r = none) :
    ∃ ending, Task.Surely (σ := σ) [] (.ok ending) (app.dispatch ctx r) := by
  have fallback : ∀ status, ∃ ending, Task.Surely (σ := σ) [] (.ok ending) (fallback status) :=
    fun _ => ⟨_, .quiet (fun _ => Task.surely_done _) rfl⟩
  simp only [dispatch, routes, Route.Table.lookup_map]
  cases hm : Method.ofName? r.method with
  | none => exact fallback _
  | some method =>
    simp only
    cases hroute : table.lookup method r.target.path with
    | methodNotAllowed => exact fallback _
    | notFound => exact fallback _
    | found v params =>
      simp only [Route.Lookup.map]
      cases hbody : r.body.collect with
      | error reason => exact ⟨_, .quiet (fun _ => .quiet (fun _ => Task.surely_done _) rfl) rfl⟩
      | ok body => simp [found?, hm, hroute, hbody] at lost

theorem through_work {v : β} {req : Request} (found : found? table r = some (v, req)) {n : Nat}
    {names : Except Panic Result → List String} {on : Except Panic Result → Except Panic Result}
    {inner : Task σ Result} (through : Task.Through n names on (g v ctx req) inner) :
    Task.Through (n + 1) names (fun y => (on y).bind fun result => .ok (Ending.ofResult result)) (app.work ctx r)
      inner := by
  rw [work, ((finds_of_found? found).reaches routes).dispatch ctx]
  refine .congr (.pause (.bind (fun _ => []) _ (surely_settle ctx) (through.within _))) fun y => ?_
  cases on y <;> simp [Except.toOption]

end

/-! ## Requests within the usual layers -/

/-- The layers of a service in their usual order. -/
def usual : List Builtin := [.logger, .errors, .metrics, .panics]

section
variable (routes : List (Endpoint σ × List (Layer σ)))

/-- An application with the usual layers, whose routes may have more layers of their own. -/
def usualApp : App σ := registerAll { layers := usual.map Builtin.layer } routes

/-- The own part of a route: its handler within its own layers. -/
def ownPart (r : Endpoint σ × List (Layer σ)) : Handler σ := r.1.handler.within r.2

/-- What the layer for metrics stands around. -/
def meteredPart (r : Endpoint σ × List (Layer σ)) : Handler σ := Handler.recorded (Layers.panics (ownPart r))

/-- The route that a request finds, and the request as the route's handler sees it. -/
def Flight.route? (f : Flight σ) : Option ((Endpoint σ × List (Layer σ)) × Request) :=
  found? (endpointTable Prod.fst {} routes) f.incoming

/-- What a part of the work on a request has come to. Before it begins, the body is there and the request has been
logged and counted, which are three moves. -/
def Flight.came? (part : Endpoint σ × List (Layer σ) → Handler σ) (f : Flight σ) : Option (Except Panic Result) :=
  (f.route? routes).bind fun (r, req) => (part r f.context req).result? (f.seen.drop 3)

/-- Whether the metered part has come to a failure, of whatever kind, or to a panic. -/
def Flight.failed (f : Flight σ) : Bool :=
  match f.came? routes meteredPart with
  | none | some (.ok (.ok _)) => false
  | some (.ok (.error _)) | some (.error _) => true

/-- Whether the own part has panicked. -/
def Flight.panicked (f : Flight σ) : Bool :=
  match f.came? routes ownPart with
  | some (.error _) => true
  | _ => false

theorem usualApp_routes : (usualApp routes).routes =
    (endpointTable Prod.fst {} routes).map fun r => (meteredPart r).wrapped [.logger, .errors, .metrics] := by
  have h := registerAll_eq (usual.map Builtin.layer) Prod.fst Prod.snd {} routes
  rw [Route.Table.map_empty, List.map_id'] at h
  rw [usualApp, h]
  rfl

variable {routes} {f : Flight σ} {u : Task σ Ending} {x : Except Panic Ending}
  (seen : ((usualApp routes).work f.context f.incoming).after f.seen = some u) (finished : u.result? [] = some x)
include seen finished

/-- When the work on a request that has found a route is over, both of its parts have come to something, and this
tells what of the counters that are kept has been counted. -/
theorem own_and_metered
    (spares : ∀ r ∈ routes, r.1.handler.Spares Counters.kept ∧ ∀ layer ∈ r.2, Layer.Spares Counters.kept layer)
    {r : Endpoint σ × List (Layer σ)} {req : Request} (found : f.route? routes = some (r, req)) :
    ∃ y, f.came? routes ownPart = some y ∧ f.came? routes meteredPart = some (Builtin.panics.onEnd y) ∧
      ∀ name ∈ Counters.kept, (f.counts (usualApp routes)).count name =
        (Builtin.metrics.counted (Builtin.panics.onEnd y) ++ Builtin.panics.counted y).count name := by
  obtain ⟨es, path⟩ := Task.exists_path seen finished
  have outside := through_work (usualApp_routes routes) f.context found
    (through_wrapped (meteredPart r) f.context req [.logger, .errors, .metrics])
  obtain ⟨first, vs, last, es₁, y₁, split, three, metered, -, perm⟩ := outside _ _ _ path
  obtain ⟨none, vs₂, last₂, es₂, y, rfl, zero, own, rfl, perm₂⟩ :=
    through_wrapped (ownPart r) f.context req [.panics] _ _ _ metered
  obtain rfl : none = [] := List.length_eq_zero_iff.mp zero
  have three : first.length = 3 := three
  have drop : f.seen.drop 3 = [] ++ vs₂ ++ last₂ ++ last := by
    rw [split, List.append_assoc, List.drop_left' three]
  refine ⟨y, ?_, ?_, fun name kept => ?_⟩
  · simp only [Flight.came?, found, Option.bind_some, drop, List.nil_append, List.append_assoc]
    exact own.result? _
  · simp only [Flight.came?, found, Option.bind_some, drop]
    exact metered.result? _
  · have mine : r ∈ routes := mem_of_endpointTable (finds_of_found? found).route
    have own_spares := spares_within (spares r mine).1 (spares r mine).2 f.context req
    rw [Flight.counts, path.counts_eq, perm.count_eq, List.count_append, perm₂.count_eq, List.count_append,
      List.count_eq_zero.mpr (own_spares.notMem own name kept), List.count_append]
    simp [countedAround, onEnd, Builtin.counted]

theorem counts_lost (lost : f.route? routes = none) : f.counts (usualApp routes) = [] := by
  obtain ⟨es, path⟩ := Task.exists_path seen finished
  obtain ⟨ending, sure⟩ := surely_lost (usualApp_routes routes) f.context lost
  rw [Flight.counts, path.counts_eq]
  rw [work] at path
  generalize f.seen = vs at path
  cases path with
  | pause v path => exact (sure _ _ _ path).1

/-- What a request has counted of each counter that is kept. -/
theorem counts_kept
    (spares : ∀ r ∈ routes, r.1.handler.Spares Counters.kept ∧ ∀ layer ∈ r.2, Layer.Spares Counters.kept layer) :
    (f.counts (usualApp routes)).count Counters.requests = (if (f.route? routes).isSome then 1 else 0) ∧
    (f.counts (usualApp routes)).count Counters.errors = (if f.failed routes then 1 else 0) ∧
    (f.counts (usualApp routes)).count Counters.panics = (if f.panicked routes then 1 else 0) := by
  cases found : f.route? routes with
  | none =>
    rw [counts_lost seen finished found]
    simp [Flight.failed, Flight.panicked, Flight.came?, found]
  | some found' =>
    obtain ⟨r, req⟩ := found'
    obtain ⟨y, own, metered, counts⟩ := own_and_metered seen finished spares found
    rw [counts _ (by simp [Counters.kept]), counts _ (by simp [Counters.kept]), counts _ (by simp [Counters.kept])]
    simp only [Flight.failed, Flight.panicked, own, metered]
    -- the three names differ, so the lists that are counted in can be looked at
    rcases y with p | e | res <;>
      simp [Builtin.onEnd, Builtin.counted, Counters.requests, Counters.errors, Counters.panics]

theorem failed_of_panicked
    (spares : ∀ r ∈ routes, r.1.handler.Spares Counters.kept ∧ ∀ layer ∈ r.2, Layer.Spares Counters.kept layer)
    (panicked : f.panicked routes = true) : f.failed routes = true := by
  cases found : f.route? routes with
  | none => simp [Flight.panicked, Flight.came?, found] at panicked
  | some found' =>
    obtain ⟨r, req⟩ := found'
    obtain ⟨y, own, metered, -⟩ := own_and_metered seen finished spares found
    simp only [Flight.panicked, own] at panicked
    simp only [Flight.failed, metered]
    rcases y with p | e | res
    · rfl
    · cases panicked
    · cases panicked

end

/-- The request is over, and it was not given up. -/
def Flight.isCompleted (f : Flight σ) : Bool :=
  match f.stage with
  | .ended (.answered _) | .ended (.panicked _) => true
  | _ => false

/-- The message is one of those that are logged once the work on a request is over. -/
def toldAfterwards (message : String) : Prop :=
  message = "signalling shutdown" ∨ message = "dropping invalid response header"

/-- A request that is completed has come to the outcome of its work, and it has a call to signal just if its work asks
for that. -/
theorem Flight.Sound.completed {app : App σ} {calls : List Channel.SignalCall} {f : Flight σ}
    (sound : f.Sound app calls) (completed : f.isCompleted = true) :
    ∃ u x, (app.work f.context f.incoming).after f.seen = some u ∧ u.result? [] = some x ∧
      f.stage = .ended (.of f.context x) ∧ f.call.isSome = signals (.of x) ∧
      ∀ event ∈ f.told, toldAfterwards event.message := by
  have dropped : ∀ ctx res, ∀ event ∈ droppedEvents ctx res, toldAfterwards event.message := by
    intro ctx res event he
    obtain ⟨name, -, rfl⟩ := List.mem_map.mp he
    exact .inr rfl
  unfold Flight.isCompleted at completed
  split at completed
  · next stage =>
    simp only [Flight.Sound, stage] at sound
    obtain ⟨res, ends, rfl⟩ := sound
    generalize f.told = told at ends
    cases ends with
    | respond seen call => exact ⟨_, _, seen, rfl, stage, by rw [call]; rfl, dropped _ _⟩
    | shutdown seen call =>
      exact ⟨_, _, seen, rfl, stage, by rw [call]; rfl, List.forall_mem_cons.mpr ⟨.inl rfl, dropped _ _⟩⟩
  · next stage =>
    simp only [Flight.Sound, stage] at sound
    obtain ⟨seen, call, told⟩ := sound
    exact ⟨_, _, seen, rfl, stage, by rw [call]; rfl, by simp [told]⟩
  · cases completed

theorem over_of_completed {app : App σ} {calls : List Channel.SignalCall} {f : Flight σ} (sound : f.Sound app calls)
    (completed : f.isCompleted = true) :
    ∃ u x, (app.work f.context f.incoming).after f.seen = some u ∧ u.result? [] = some x := by
  obtain ⟨u, x, seen, ended, -⟩ := sound.completed completed
  exact ⟨u, x, seen, ended⟩

/-- If each element has a name once or not at all, the name is there as often as there are elements that have it. -/
theorem count_flatMap {α : Type} {φ : α → List String} {p : α → Bool} {name : String} {l : List α}
    (h : ∀ a ∈ l, (φ a).count name = if p a then 1 else 0) : (l.flatMap φ).count name = l.countP p := by
  induction l with
  | nil => rfl
  | cons a l ih =>
    obtain ⟨here, rest⟩ := List.forall_mem_cons.mp h
    rw [List.flatMap_cons, List.count_append, here, ih rest, List.countP_cons, Nat.add_comm]

section
variable {routes : List (Endpoint σ × List (Layer σ))} {s : Traffic σ}
  (spares : ∀ r ∈ routes, r.1.handler.Spares Counters.kept ∧ ∀ layer ∈ r.2, Layer.Spares Counters.kept layer)
  (I : Traffic.Inv (usualApp routes) s)
  (tallied : Traffic.Tallied (usualApp routes) s.shared.counters s.flights)
  (completed : ∀ f ∈ s.flights, f.isCompleted = true)
include spares I tallied completed

theorem counters_completed :
    s.shared.counters.get Counters.requests = s.flights.countP (fun f => (f.route? routes).isSome) ∧
    s.shared.counters.get Counters.errors = s.flights.countP (Flight.failed routes) ∧
    s.shared.counters.get Counters.panics = s.flights.countP (Flight.panicked routes) := by
  have kept : ∀ f ∈ s.flights, _ := fun f hf =>
    have ⟨_, _, seen, ended⟩ := over_of_completed (I.sound f hf) (completed f hf)
    counts_kept seen ended spares
  exact ⟨(tallied _).trans (count_flatMap fun f hf => (kept f hf).1),
    (tallied _).trans (count_flatMap fun f hf => (kept f hf).2.1),
    (tallied _).trans (count_flatMap fun f hf => (kept f hf).2.2)⟩

end

/-- What the counters tell when all requests are completed. -/
structure Accounts (routes : List (Endpoint σ × List (Layer σ))) (s : Traffic σ) : Prop where
  /-- The requests that found a route and whose body was read. -/
  requests : s.shared.counters.get Counters.requests = s.flights.countP fun f => (f.route? routes).isSome
  /-- Those whose metered part failed or panicked. -/
  errors : s.shared.counters.get Counters.errors = s.flights.countP (Flight.failed routes)
  /-- Those whose own part panicked. -/
  panics : s.shared.counters.get Counters.panics = s.flights.countP (Flight.panicked routes)
  panics_le : s.shared.counters.get Counters.panics ≤ s.shared.counters.get Counters.errors
  errors_le : s.shared.counters.get Counters.errors ≤ s.shared.counters.get Counters.requests
  /-- A request that found no route, or whose body could not be read, is none of them. -/
  lost : ∀ f ∈ s.flights, f.route? routes = none → f.failed routes = false ∧ f.panicked routes = false
  /-- Nor did one fail whose own part came to a response, whatever its status. -/
  answered : ∀ f ∈ s.flights, ∀ res, f.came? routes ownPart = some (.ok (.ok res)) →
    f.failed routes = false ∧ f.panicked routes = false

/-- **Counters account for every request.** Within the usual layers, whatever the routes and the layers that they have
of their own, as long as those do not touch the counters themselves, and in whatever order requests take turns: when
all requests are completed, the counters are the numbers of those that found a route, that failed and that
panicked. -/
theorem counters_account (routes : List (Endpoint σ × List (Layer σ)))
    (spares : ∀ r ∈ routes, r.1.handler.Spares Counters.kept ∧ ∀ layer ∈ r.2, Layer.Spares Counters.kept layer)
    (service : σ) (as : List Traffic.Action) (s : Traffic σ)
    (ran : Traffic.run (usualApp routes) { shared := { service } } as = some s)
    (completed : ∀ f ∈ s.flights, f.isCompleted = true) : Accounts routes s := by
  have start := Traffic.inv_init (usualApp routes) service
  have I := (Traffic.inv_run start ran).1
  have tallied := Traffic.tallied_run start (fun name => rfl) ran
  have finished : ∀ f ∈ s.flights, ∃ u x, ((usualApp routes).work f.context f.incoming).after f.seen = some u ∧
      u.result? [] = some x := fun f hf => over_of_completed (I.sound f hf) (completed f hf)
  obtain ⟨requests, errors, panics⟩ := counters_completed spares I tallied completed
  refine ⟨requests, errors, panics, ?_, ?_, ?_, ?_⟩
  · rw [panics, errors]
    refine List.countP_mono_left fun f hf panicked => ?_
    obtain ⟨u, x, seen, ended⟩ := finished f hf
    exact failed_of_panicked seen ended spares panicked
  · rw [errors, requests]
    refine List.countP_mono_left fun f _ failed => ?_
    cases found : f.route? routes with
    | none => simp [Flight.failed, Flight.came?, found] at failed
    | some found' => rfl
  · intro f hf lost
    simp [Flight.failed, Flight.panicked, Flight.came?, lost]
  · intro f hf res own
    cases found : f.route? routes with
    | none => simp [Flight.came?, found] at own
    | some found' =>
      obtain ⟨u, x, seen, ended⟩ := finished f hf
      obtain ⟨y, own', metered, -⟩ := own_and_metered seen ended spares found
      obtain rfl : .ok (.ok res) = y := Option.some.inj (own.symm.trans own')
      simp [Flight.failed, Flight.panicked, own, metered, Builtin.onEnd]

/-- **A table of words accounts for them too.** The names that were counted in a run, counted in the same order in a
hash table of 64-bit words that was empty, give the same numbers, if there were fewer than `2 ^ 64` requests. -/
theorem table_accounts (routes : List (Endpoint σ × List (Layer σ)))
    (spares : ∀ r ∈ routes, r.1.handler.Spares Counters.kept ∧ ∀ layer ∈ r.2, Layer.Spares Counters.kept layer)
    (service : σ) (as : List Traffic.Action) (s : Traffic σ)
    (ran : Traffic.run (usualApp routes) { shared := { service } } as = some s)
    (completed : ∀ f ∈ s.flights, f.isCompleted = true) (few : s.flights.length < 2 ^ 64) :
    ∃ names, s.shared.counters = Counters.after [] names ∧
      ((Counters.Table.after ∅ names).get Counters.requests).toNat =
        s.flights.countP (fun f => (f.route? routes).isSome) ∧
      ((Counters.Table.after ∅ names).get Counters.errors).toNat = s.flights.countP (Flight.failed routes) ∧
      ((Counters.Table.after ∅ names).get Counters.panics).toNat = s.flights.countP (Flight.panicked routes) := by
  have start := Traffic.inv_init (usualApp routes) service
  obtain ⟨requests, errors, panics⟩ := counters_completed spares (Traffic.inv_run start ran).1
    (Traffic.tallied_run start (fun name => rfl) ran) completed
  obtain ⟨names, counted⟩ := Traffic.counted_run ran
  -- no counter exceeds the number of requests, so each has room in its word
  have word : ∀ {name : String} {p : Flight σ → Bool}, s.shared.counters.get name = s.flights.countP p →
      ((Counters.Table.after ∅ names).get name).toNat = s.flights.countP p := by
    intro name p count
    rw [counted, Counters.get_after] at count
    have counts : names.count name = s.flights.countP p := (Nat.zero_add _).symm.trans count
    have most : s.flights.countP p ≤ s.flights.length := List.countP_le_length
    rw [Counters.Table.get_after (by omega), counts]
  exact ⟨names, counted, word requests, word errors, word panics⟩

def troubledRoutes : List (Endpoint Unit × List (Layer Unit)) :=
  [(⟨.get, "v1", "fails", fun _ _ => .pause (.done (.error (.shutdown "no more")))⟩, []),
   (⟨.get, "v1", "panics", fun _ _ => .pause (.panicked .other)⟩, [Layers.logger]),
   (⟨.get, "v1", "answers", fun _ _ => .done (.ok (.ofStatus .unavailable))⟩, [])]

theorem troubledRoutes_spare :
    ∀ r ∈ troubledRoutes, r.1.handler.Spares Counters.kept ∧ ∀ layer ∈ r.2, Layer.Spares Counters.kept layer := by
  have logger : Layer.Spares (σ := Unit) Counters.kept Layers.logger := by
    intro h spares ctx req
    refine .step (by simp [Effect.counted?]) fun _ => (spares ctx req).bind fun result => ?_
    exact .step (by simp [Effect.counted?]) fun _ => .step (by simp [Effect.counted?]) fun _ => .done
  simp only [troubledRoutes, List.forall_mem_cons]
  refine ⟨⟨fun _ _ => .pause .done, by simp⟩, ⟨fun _ _ => .pause .panicked, by simpa using logger⟩,
    ⟨fun _ _ => .done, by simp⟩, by simp⟩

def troubledRun : List Traffic.Action :=
  (["/v1/fails", "/v1/panics", "/v1/answers", "/nowhere"].map fun path =>
      .arrive { target := { origin := "", path, query := none } } .epoch) ++
    (List.replicate 4 [.advance 3, .advance 0, .advance 1, .advance 2]).flatten ++
    (List.replicate 8 [.advance 0, .advance 1, .advance 2]).flatten ++
    (List.replicate 3 [.advance 1, .advance 0]).flatten ++ [.advance 1]

theorem counters_account_troubled : ∃ s,
    Traffic.run (usualApp troubledRoutes) { shared := { service := () } } troubledRun = some s ∧
      (∀ f ∈ s.flights, f.isCompleted = true) ∧
      ([Counters.requests, Counters.errors, Counters.panics].map fun name => s.shared.counters.get name) = [3, 2, 1] ∧
      Accounts troubledRoutes s := by
  have finished : (Traffic.run (usualApp troubledRoutes) { shared := { service := () } } troubledRun).map (fun s =>
      (s.flights.all Flight.isCompleted,
        [Counters.requests, Counters.errors, Counters.panics].map fun name => s.shared.counters.get name)) =
      some (true, [3, 2, 1]) := by decide +kernel
  obtain ⟨s, ran, seen⟩ := Option.map_eq_some_iff.mp finished
  obtain ⟨completed, counters⟩ := Prod.mk.inj seen
  rw [List.all_eq_true] at completed
  exact ⟨s, ran, completed, counters, counters_account _ troubledRoutes_spare () _ s ran completed⟩

end App

end JsonService
