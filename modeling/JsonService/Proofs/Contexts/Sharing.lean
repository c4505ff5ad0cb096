import JsonService.Contexts
import JsonService.Proofs.Layers.Effects
import JsonService.Proofs.Tokens

/-!
# What contexts share

Contexts are of one family if they descend by cloning from the same new context. What happens to a context happens to
its family and to no other one; all of them count together.

**The past (`Past`).** The origin of each context, told by the steps alone, and what has been done to the request behind
which context, in order: the effects of the tasks that have run.

**The invariant (`Kin`).** Contexts lead to the same values, and to the same token, if and only if they are of one
family. No token of a context hangs on another one. The state of a family is what has been done to it.

**Results.**
* `Kin.step`, `kin_told`: every step keeps the invariant, so it holds in every run.
* `Kin.changes`: what one step more does with the contexts that there are.
* `shared_along_clones`: who shares what, who is left alone by a step, and what the state of a context says about the
  past.
-/
namespace JsonService

variable {α : Type}

namespace Contexts

/-! ## The past -/

/-- What has happened to contexts so far. -/
structure Past where
  /-- The new context that each context descends from by cloning. -/
  origins : List Nat := [0]
  /-- What has been done to the request behind a context, with the origin of the context. -/
  deeds : List (Nat × Effect Unit) := []

/-- What a step does to the request behind a context, and the number of the context. -/
def effects (cs : Contexts) : Step → Nat × List (Effect Unit)
  | .answer n _ status => (n, [.record status])
  | .call n handler req => (n, (handler (cs.context n) req).took (cs.world n) ++
      ((handler (cs.context n) req).run (cs.world n)).1.status?.toList.map .record)
  | .cancel n => (n, [.cancel])
  | .increment name => (0, [.count name])
  | .clone _ | .create | .cancelChild _ | .nothing => (0, [])

namespace Past

def origin (p : Past) (n : Nat) : Nat := p.origins.getD (min n (p.origins.length - 1)) 0

/-- What has been done to a family, in order. -/
def done (p : Past) (origin : Nat) : List (Effect Unit) :=
  p.deeds.filterMap fun d => if d.1 = origin then some d.2 else none

/-- The status recorded last in a family. -/
def recorded (p : Past) (origin : Nat) : Option Status := ((p.done origin).filterMap Effect.recorded?).getLast?

/-- The past with deeds more. -/
def add (p : Past) (origin : Nat) (es : List (Effect Unit)) : Past :=
  { p with deeds := p.deeds ++ es.map (origin, ·) }

/-- The past after a step more. -/
def after (p : Past) (cs : Contexts) (step : Step) : Past :=
  match step with
  | .clone n => { p with origins := p.origins ++ [p.origin n] }
  | .create => { p with origins := p.origins ++ [p.origins.length] }
  | step => p.add (p.origin (cs.effects step).1) (cs.effects step).2

end Past

/-- Contexts and their past after some steps. -/
def told (cs : Contexts) (p : Past) : List Step → Contexts × Past
  | [] => (cs, p)
  | step :: steps => (cs.step step).told (p.after cs step) steps

theorem told_run (cs : Contexts) (p : Past) (steps : List Step) : (cs.told p steps).1 = cs.run steps := by
  induction steps generalizing cs p with
  | nil => rfl
  | cons step steps ih => exact ih _ _

/-! ## The invariant -/

def rows (p : Past) (cs : Contexts) : List (Nat × Member) := p.origins.zip cs.members

/-- Where a context leads to. -/
structure Leads (p : Past) (cs : Contexts) (r : Nat × Member) : Prop where
  origin : r.1 < p.origins.length
  values : r.2.values < cs.statuses.length
  token : r.2.token < cs.tokens.count
  /-- Its token hangs on no other. -/
  root : cs.tokens.above r.2.token = []
  /-- What there is of its request is what has been done to its family. -/
  state : r.2.state cs = RequestState.through {} (p.done r.1)

structure Kin (p : Past) (cs : Contexts) : Prop where
  length : p.origins.length = cs.members.length
  inhabited : 0 < cs.members.length
  leads : ∀ r ∈ rows p cs, Leads p cs r
  values : ∀ r ∈ rows p cs, ∀ s ∈ rows p cs, r.1 = s.1 ↔ r.2.values = s.2.values
  token : ∀ r ∈ rows p cs, ∀ s ∈ rows p cs, r.1 = s.1 ↔ r.2.token = s.2.token
  deeds : ∀ d ∈ p.deeds, d.1 < p.origins.length
  counters : ∀ name, cs.counters.get name = (counted (p.deeds.map (·.2))).count name

theorem kin_init : Kin {} {} := by
  have leads : Leads {} {} (0, ⟨0, 0⟩) := ⟨by decide, by decide, by decide, rfl, rfl⟩
  refine ⟨rfl, by decide, ?_, ?_, ?_, by simp, fun name => rfl⟩
  · intro r hr
    rw [List.mem_singleton.mp hr]
    exact leads
  · intro r hr s hs
    rw [List.mem_singleton.mp hr, List.mem_singleton.mp hs]
  · intro r hr s hs
    rw [List.mem_singleton.mp hr, List.mem_singleton.mp hs]

section
variable {p : Past} {cs : Contexts} {n : Nat}

theorem Past.done_add (origin origin' : Nat) (es : List (Effect Unit)) :
    (p.add origin es).done origin' = p.done origin' ++ if origin = origin' then es else [] := by
  have added : List.filterMap (fun d => if d.1 = origin' then some d.2 else none) (es.map (origin, ·)) =
      List.filterMap (fun e => if origin = origin' then some e else none) es := List.filterMap_map
  rw [done, add, List.filterMap_append, added]
  split <;> simp [done]

theorem Past.add_nil (p : Past) (origin : Nat) : p.add origin [] = p := by simp [add]

theorem Kin.row (K : Kin p cs) (n : Nat) : (p.origin n, cs.member n) ∈ rows p cs := by
  have hi : cs.index n < cs.members.length := by
    have := K.inhabited
    simp only [index]
    omega
  have ho : cs.index n < p.origins.length := by rw [K.length]; exact hi
  have origin : p.origin n = p.origins[cs.index n] := by
    have same : p.origin n = p.origins.getD (cs.index n) 0 := by rw [Past.origin, K.length, index]
    simp [same, ho]
  have member : cs.member n = cs.members[cs.index n] := by simp [Contexts.member, hi]
  have row : (rows p cs)[cs.index n]? = some (p.origin n, cs.member n) := by
    rw [origin, member, rows, List.getElem?_zip_eq_some]
    exact ⟨List.getElem?_eq_getElem ho, List.getElem?_eq_getElem hi⟩
  exact List.mem_of_getElem? row

/-- The state of a context is what has been done to its family. -/
theorem Kin.state_eq (K : Kin p cs) (n : Nat) : cs.state n = RequestState.through {} (p.done (p.origin n)) :=
  (K.leads _ (K.row n)).state

theorem Kin.status_eq (K : Kin p cs) (n : Nat) : (cs.state n).status = p.recorded (p.origin n) := by
  rw [K.state_eq, RequestState.through_status]
  exact Option.or_none

/-! ## Steps -/

/-- A run changes the state of the whole family of its context as its effects say. -/
theorem Kin.state_work (K : Kin p cs) (n : Nat) (task : Context → Task Unit α) {r : Nat × Member}
    (hr : r ∈ rows p cs) (same : p.origin n = r.1) :
    r.2.state (cs.work n task) = (r.2.state cs).through ((task (cs.context n)).took (cs.world n)) := by
  have leads := K.leads r hr
  have values : (cs.member n).values = r.2.values := (K.values _ (K.row n) r hr).mp same
  have token : (cs.member n).token = r.2.token := (K.token _ (K.row n) r hr).mp same
  have before : r.2.state cs = (cs.world n).request := by
    simp only [Member.state, world, Contexts.state, values, token]
  have kept := (RequestState.through_cancelled (r.2.state cs) ((task (cs.context n)).took (cs.world n))).mpr ∘ .inl
  rw [before, ← Task.run_request] at kept ⊢
  rw [← before] at kept
  simp only [Member.state, work, values, token] at kept ⊢
  generalize ((task (cs.context n)).run (cs.world n)).2.request = left at kept ⊢
  have status : (cs.statuses.set r.2.values left.status).getD r.2.values none = left.status := by
    simp [List.getD_eq_getElem?_getD, leads.values]
  rw [status]
  congr 1
  split
  · next gone => rw [gone, cs.tokens.isCancelled_cancel_self leads.token]
  · next goes =>
    -- a run does not undo a cancellation
    have before : ¬ cs.tokens.isCancelled r.2.token = true := mt kept goes
    rw [eq_false_of_ne_true before, eq_false_of_ne_true goes]

theorem Kin.state_work_other (K : Kin p cs) (n : Nat) (task : Context → Task Unit α) {r : Nat × Member}
    (hr : r ∈ rows p cs) (other : p.origin n ≠ r.1) : r.2.state (cs.work n task) = r.2.state cs := by
  have values : (cs.member n).values ≠ r.2.values := mt (K.values _ (K.row n) r hr).mpr other
  have token : (cs.member n).token ≠ r.2.token := mt (K.token _ (K.row n) r hr).mpr other
  have apart : ¬ cs.tokens.Hangs r.2.token (cs.member n).token := by
    rintro ⟨-, h | h⟩
    · exact token h.symm
    · rw [(K.leads r hr).root] at h
      cases h
  have status : ∀ x, (cs.statuses.set (cs.member n).values x).getD r.2.values none =
      cs.statuses.getD r.2.values none := by
    intro x
    simp only [List.getD_eq_getElem?_getD, List.getElem?_set_ne values]
  simp only [Member.state, work, status]
  congr 1
  split
  · exact cs.tokens.isCancelled_cancel_other apart
  · rfl

/-- A run of a task with one of the contexts keeps the invariant. -/
theorem Kin.work (K : Kin p cs) (n : Nat) (task : Context → Task Unit α) :
    Kin (p.add (p.origin n) ((task (cs.context n)).took (cs.world n))) (cs.work n task) := by
  refine ⟨K.length, K.inhabited, fun r hr => ?_, K.values, K.token, fun d hd => ?_, fun name => ?_⟩
  · have leads := K.leads r hr
    refine ⟨leads.origin, ?_, ?_, ?_, ?_⟩
    · simpa [Contexts.work] using leads.values
    · simp only [Contexts.work]
      split
      · simpa using leads.token
      · exact leads.token
    · simp only [Contexts.work]
      split
      · simpa using leads.root
      · exact leads.root
    · rw [Past.done_add]
      split
      · next same => rw [K.state_work n task hr same, leads.state, RequestState.through_append]
      · next other => rw [K.state_work_other n task hr other, leads.state, List.append_nil]
  · rcases List.mem_append.mp hd with hd | hd
    · exact K.deeds d hd
    · obtain ⟨e, -, rfl⟩ := List.mem_map.mp hd
      exact (K.leads _ (K.row n)).origin
  · have counters : (cs.work n task).counters = ((task (cs.context n)).run (cs.world n)).2.shared.counters := rfl
    have deeds : (p.add (p.origin n) ((task (cs.context n)).took (cs.world n))).deeds.map (·.2) =
        p.deeds.map (·.2) ++ (task (cs.context n)).took (cs.world n) := by
      simp [Past.add, Function.comp_def]
    rw [counters, Task.run_counters, deeds, counted_append, List.count_append, ← K.counters name]
    rfl

theorem Kin.clone (K : Kin p cs) (n : Nat) :
    Kin { p with origins := p.origins ++ [p.origin n] } { cs with members := cs.members ++ [cs.member n] } := by
  have rows_eq : rows { p with origins := p.origins ++ [p.origin n] }
      { cs with members := cs.members ++ [cs.member n] } = rows p cs ++ [(p.origin n, cs.member n)] :=
    List.zip_append K.length
  -- the new row is an old one
  have old : ∀ r ∈ rows p cs ++ [(p.origin n, cs.member n)], r ∈ rows p cs := by
    intro r hr
    rcases List.mem_append.mp hr with hr | hr
    · exact hr
    · exact List.mem_singleton.mp hr ▸ K.row n
  refine ⟨by simp [K.length], by simp, fun r hr => ?_, fun r hr s hs => ?_, fun r hr s hs => ?_, fun d hd => ?_,
    K.counters⟩
  · obtain ⟨origin, values, token, root, state⟩ := K.leads r (old r (rows_eq ▸ hr))
    exact ⟨by simp; omega, values, token, root, state⟩
  · exact K.values r (old r (rows_eq ▸ hr)) s (old s (rows_eq ▸ hs))
  · exact K.token r (old r (rows_eq ▸ hr)) s (old s (rows_eq ▸ hs))
  · have := K.deeds d hd
    simp
    omega

/-- Nothing has been done to a family that is not there yet. -/
theorem Kin.done_new (K : Kin p cs) : p.done p.origins.length = [] := by
  rw [Past.done, List.filterMap_eq_nil_iff]
  intro d hd
  rw [if_neg (Nat.ne_of_lt (K.deeds d hd))]

theorem told_apart {f : Nat × Member → Nat} {old : List (Nat × Member)} {new : Nat × Member}
    (same : ∀ r ∈ old, ∀ s ∈ old, r.1 = s.1 ↔ f r = f s) (fresh : ∀ r ∈ old, r.1 < new.1 ∧ f r < f new) :
    ∀ r ∈ old ++ [new], ∀ s ∈ old ++ [new], r.1 = s.1 ↔ f r = f s := by
  intro r hr s hs
  rcases List.mem_append.mp hr with hr | hr <;> rcases List.mem_append.mp hs with hs | hs
  · exact same r hr s hs
  · rw [List.mem_singleton.mp hs]
    exact iff_of_false (Nat.ne_of_lt (fresh r hr).1) (Nat.ne_of_lt (fresh r hr).2)
  · rw [List.mem_singleton.mp hr]
    exact iff_of_false (Nat.ne_of_gt (fresh s hs).1) (Nat.ne_of_gt (fresh s hs).2)
  · rw [List.mem_singleton.mp hr, List.mem_singleton.mp hs]
    exact iff_of_true rfl rfl

theorem Kin.create (K : Kin p cs) :
    Kin { p with origins := p.origins ++ [p.origins.length] } (cs.step .create) := by
  let new : Nat × Member := (p.origins.length, ⟨cs.statuses.length, cs.tokens.count⟩)
  have rows_eq : rows { p with origins := p.origins ++ [p.origins.length] } (cs.step .create) = rows p cs ++ [new] :=
    List.zip_append K.length
  refine ⟨by simp [K.length, Contexts.step], by simp [Contexts.step], ?_, ?_, ?_, fun d hd => ?_, K.counters⟩
  · rw [rows_eq]
    intro r hr
    rcases List.mem_append.mp hr with hr | hr
    · obtain ⟨origin, values, token, root, state⟩ := K.leads r hr
      have same : r.2.state (cs.step .create) = r.2.state cs := by
        simp [Member.state, Contexts.step, List.getD_eq_getElem?_getD, List.getElem?_append_left values]
      exact ⟨by simp; omega, by simp [Contexts.step]; omega, by simp [Contexts.step]; omega,
        by simpa [Contexts.step] using root, same.trans state⟩
    · rw [List.mem_singleton.mp hr]
      have nothing : new.2.state (cs.step .create) = {} := by
        simp [new, Member.state, Contexts.step, List.getD_eq_getElem?_getD, Tokens.isCancelled_count]
      refine ⟨by simp [new], by simp [new, Contexts.step], by simp [new, Contexts.step],
        by simp [new, Contexts.step, Tokens.above_count], nothing.trans ?_⟩
      exact (congrArg (RequestState.through {}) K.done_new).symm
  · rw [rows_eq]
    exact told_apart K.values fun r hr => ⟨(K.leads r hr).origin, (K.leads r hr).values⟩
  · rw [rows_eq]
    exact told_apart K.token fun r hr => ⟨(K.leads r hr).origin, (K.leads r hr).token⟩
  · have := K.deeds d hd
    simp
    omega

/-- What hangs on the token of a context may be cancelled without the context. -/
theorem Kin.cancelChild (K : Kin p cs) (n : Nat) : Kin p (cs.step (.cancelChild n)) := by
  have parent := (K.leads _ (K.row n)).token
  refine ⟨K.length, K.inhabited, fun r hr => ?_, K.values, K.token, K.deeds, K.counters⟩
  obtain ⟨origin, values, token, root, state⟩ := K.leads r hr
  have same : r.2.state (cs.step (.cancelChild n)) = r.2.state cs := by
    simp only [Member.state, Contexts.step, cs.tokens.isCancelled_cancel_child parent token]
  refine ⟨origin, values, ?_, ?_, same.trans state⟩
  · simp [Contexts.step]
    omega
  · simp only [Contexts.step, Tokens.above_cancel]
    rw [cs.tokens.above_child parent, if_neg (Nat.ne_of_lt token), root]

theorem Kin.step (K : Kin p cs) (step : Step) : Kin (p.after cs step) (cs.step step) := by
  cases step with
  | clone n => exact K.clone n
  | create => exact K.create
  | answer n value status =>
    have kept := K.work n fun _ => JsonService.respond value status
    rwa [took_respond] at kept
  | call n handler req =>
    have kept := K.work n fun ctx => Handler.recorded handler ctx req
    rwa [took_recorded] at kept
  | cancel n => exact K.work n fun _ => Task.perform .cancel
  | cancelChild n =>
    have same : p.after cs (.cancelChild n) = p := p.add_nil _
    rw [same]
    exact K.cancelChild n
  | increment name => exact K.work 0 fun _ => Task.count name
  | nothing =>
    have same : p.after cs .nothing = p := p.add_nil _
    rw [same]
    exact K

theorem kin_told (K : Kin p cs) (steps : List Step) : Kin (cs.told p steps).2 (cs.told p steps).1 := by
  induction steps generalizing cs p with
  | nil => exact K
  | cons step steps ih => exact ih (K.step step)

/-! ## One step more -/

/-- The context that a step is on. A step that clones a context, makes one, counts, or cancels a child of a token is on
none. -/
def Step.on : Step → Option Nat
  | .answer n _ _ | .call n _ _ | .cancel n => some n
  | .clone _ | .create | .cancelChild _ | .increment _ | .nothing => none

/-- One element more at the end does not change which one a number stands for. -/
theorem getD_clamped {β : Type} (l : List β) (a d : β) (h : n < l.length) :
    (l ++ [a]).getD (min n ((l ++ [a]).length - 1)) d = l.getD (min n (l.length - 1)) d := by
  have here : min n ((l ++ [a]).length - 1) = n := by simp; omega
  have before : min n (l.length - 1) = n := by omega
  rw [here, before, List.getD_eq_getElem?_getD, List.getD_eq_getElem?_getD, List.getElem?_append_left h]

theorem Past.after_origin (p : Past) (cs : Contexts) (step : Step) (h : n < p.origins.length) :
    (p.after cs step).origin n = p.origin n := by
  cases step with
  | clone | create => exact getD_clamped p.origins _ 0 h
  | _ => rfl

theorem Past.after_done (p : Past) (cs : Contexts) (step : Step) (origin : Nat) : (p.after cs step).done origin =
    p.done origin ++ if p.origin (cs.effects step).1 = origin then (cs.effects step).2 else [] := by
  have none : ∀ c : Prop, [Decidable c] → p.done origin = p.done origin ++ if c then [] else [] := by simp
  cases step with
  | clone m => exact none _
  | create => exact none _
  | _ => exact Past.done_add _ _ _

theorem member_step (cs : Contexts) (step : Step) (h : n < cs.members.length) :
    (cs.step step).member n = cs.member n := by
  cases step with
  | clone | create => exact getD_clamped cs.members _ ⟨0, 0⟩ h
  | _ => rfl

theorem Kin.state_step (K : Kin p cs) (step : Step) (h : n < cs.members.length) : (cs.step step).state n =
    (cs.state n).through (if p.origin (cs.effects step).1 = p.origin n then (cs.effects step).2 else []) := by
  have origin := p.after_origin cs step (K.length ▸ h)
  rw [(K.step step).state_eq, K.state_eq, origin, Past.after_done, RequestState.through_append]

/-- What a step does with the contexts that there are. -/
structure Changes (p : Past) (cs : Contexts) (step : Step) : Prop where
  context : ∀ n < cs.members.length, (cs.step step).context n = cs.context n
  /-- The contexts of other families stay as they are. -/
  others : ∀ n < cs.members.length, (∀ m, step.on = some m → p.origin m ≠ p.origin n) →
    (cs.step step).state n = cs.state n
  /-- No cancellation is undone. -/
  kept : ∀ n < cs.members.length, (cs.state n).cancelled = true → ((cs.step step).state n).cancelled = true
  responded : ∀ n < cs.members.length, ∀ value status, step = .respond n value status →
    ((cs.step step).state n).status = some status
  called : ∀ n < cs.members.length, ∀ handler req res, step = .call n handler req →
    ((handler (cs.context n) req).run (cs.world n)).1 = .returned (.ok res) →
    ((cs.step step).state n).status = some res.status

theorem Kin.changes (K : Kin p cs) (step : Step) : Changes p cs step := by
  refine ⟨fun n h => ?_, fun n h apart => ?_, fun n h cancelled => ?_, fun n h value status hs => ?_,
    fun n h handler req res hs hr => ?_⟩
  · rw [context, member_step cs step h]
    rfl
  · rw [K.state_step step h]
    cases step with
    | answer m value status => rw [effects, if_neg (apart m rfl)]; rfl
    | call m handler req => rw [effects, if_neg (apart m rfl)]; rfl
    | cancel m => rw [effects, if_neg (apart m rfl)]; rfl
    | _ => split <;> rfl
  · rw [K.state_step step h]
    exact (RequestState.through_cancelled _ _).mpr (.inl cancelled)
  · subst hs
    rw [K.state_step _ h, Step.respond, effects, if_pos rfl]
    rfl
  · subst hs
    rw [K.state_step _ h, effects, if_pos rfl, RequestState.through_append, hr]
    rfl

/-! ## Runs -/

/-- Whether whoever waits for the cancellation of a context goes on. -/
def wakes (cs : Contexts) (n : Nat) : Prop :=
  ((Task.await (·.cancelled) (.done ()) : Task Unit Unit).run (cs.world n)).1 = .returned ()

/-- Who shares what, and what contexts tell of the past. -/
structure Sharing (p : Past) (cs : Contexts) : Prop where
  /-- Contexts of one family have the same trace and the same state, -/
  together : ∀ m n, p.origin m = p.origin n → (cs.context m).trace = (cs.context n).trace ∧ cs.state m = cs.state n
  /-- and others have other traces. -/
  apart : ∀ m n, p.origin m ≠ p.origin n → (cs.context m).trace ≠ (cs.context n).trace
  /-- The status is the one of the last response of the family. -/
  status : ∀ n, (cs.state n).status = p.recorded (p.origin n)
  cancelled : ∀ n, (cs.state n).cancelled = true ↔ .cancel ∈ p.done (p.origin n)
  wakes : ∀ n, cs.wakes n ↔ (cs.state n).cancelled = true
  /-- All see the same counters, which account for every count there has been. -/
  counters : ∀ n name, (cs.world n).view.counters.get name = (counted (p.deeds.map (·.2))).count name

theorem Kin.shares (K : Kin p cs)
    (fresh : ∀ a < cs.statuses.length, ∀ b < cs.statuses.length, Context.traceOf a = Context.traceOf b → a = b) :
    Sharing p cs := by
  refine ⟨fun m n same => ?_, fun m n apart same => ?_, K.status_eq, fun n => ?_, fun n => ?_, fun n => K.counters⟩
  · have values : (cs.member m).values = (cs.member n).values := (K.values _ (K.row m) _ (K.row n)).mp same
    refine ⟨congrArg Context.traceOf values, ?_⟩
    rw [K.state_eq, K.state_eq, same]
  · have values := fresh _ (K.leads _ (K.row m)).values _ (K.leads _ (K.row n)).values same
    exact apart ((K.values _ (K.row m) _ (K.row n)).mpr values)
  · rw [K.state_eq, RequestState.through_cancelled]
    exact or_iff_right Bool.false_ne_true
  · simp only [Contexts.wakes, Task.run, World.view, world, Bool.or_false]
    cases (cs.state n).cancelled <;> simp

end

/-- In every run of steps contexts share along clones and nowhere else: contexts of one family have the same trace and
always the same state, and other contexts have other traces, as far as traces are fresh. One step more on a context
changes the state of its family only. The status is the one of the last response of the family, which is one that it has
responded with or one that a handler has come to; a context is cancelled if one of its family has been; and all contexts
see what all of them have counted. -/
theorem shared_along_clones (steps : List Step)
    (fresh : ∀ a < (run {} steps).statuses.length, ∀ b < (run {} steps).statuses.length,
      Context.traceOf a = Context.traceOf b → a = b) :
    Sharing (told {} {} steps).2 (run {} steps) ∧ ∀ step, Changes (told {} {} steps).2 (run {} steps) step := by
  have K := kin_told kin_init steps
  rw [told_run] at K
  exact ⟨K.shares fresh, K.changes⟩

def family : List Step :=
  [.clone 0, .create, .respond 1 (.nat 1) .created, .cancel 2, .cancelChild 0, .increment "n"]

/-- What the clone has responded the context shows; that the other one is cancelled, and a child of its own token, it
does not. -/
theorem shared_along_clones_family : (run {} family).state 0 = (run {} family).state 1 ∧
    ((run {} family).state 0).status = some .created ∧ ((run {} family).state 0).cancelled = false ∧
    ((run {} family).context 0).trace ≠ ((run {} family).context 2).trace := by
  have fresh : ∀ a < (run {} family).statuses.length, ∀ b < (run {} family).statuses.length,
      Context.traceOf a = Context.traceOf b → a = b := by
    have count : (run {} family).statuses.length = 2 := rfl
    rw [count]
    decide
  obtain ⟨shared, -⟩ := shared_along_clones family fresh
  refine ⟨(shared.together 0 1 rfl).2, (shared.status 0).trans rfl, ?_, shared.apart 0 2 (by decide)⟩
  rw [← Bool.not_eq_true, shared.cancelled]
  have done : (told {} {} family).2.done ((told {} {} family).2.origin 0) = [.record .created, .count "n"] := rfl
  simp [done]

end Contexts

end JsonService
