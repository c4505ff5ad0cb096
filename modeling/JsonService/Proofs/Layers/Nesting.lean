import JsonService.Proofs.App.Ending
import Mathlib.Data.List.TakeWhile

/-!
# How layers nest

A request passes the layers of its application and then those of its route on its way in, and the same layers in
reverse order on its way out, unless a layer answers by itself or a panic cuts the way short.

**Rings.** A `Ring` is a layer of one of three kinds: it marks the request when it comes in and when it goes out, it
answers without calling the handler inside of it, or it catches panics. Marks are kept in the state of the service,
in a `Journal`, and a handler marks each of its runs there.

**Results.**
* `marks_within`: what a run within some rings marks, and what it comes to.
* `layers_nest`: what one request marks: on its way in the rings in their order, down to the first that answers or to
  the handler; on its way out the rings that it has passed, in reverse order, but those inside of the innermost one
  that catches panics if the handler panics. Where the layers of the application end and those of the route begin
  makes no difference at all.
-/
namespace JsonService

variable {σ ν : Type}

/-- What is marked about a request on its way. -/
inductive Mark (ν : Type) where
  | entered (name : ν)
  /-- The handler runs. -/
  | handled
  /-- A layer hands on what it has got. -/
  | left (name : ν) (result : Result)

/-- Where a service keeps marks: each comes after those that are there. -/
structure Journal (σ ν : Type) where
  marks : σ → List (Mark ν)
  put : Mark ν → σ → σ
  marks_put : ∀ m s, marks (put m s) = marks s ++ [m]

/-- A layer of one of three kinds. -/
inductive Ring (ν : Type) where
  /-- It marks what passes it. -/
  | marking (name : ν)
  /-- It answers without calling the handler inside of it. -/
  | answering (result : Result)
  /-- It catches panics. -/
  | catching

namespace Ring

def entering : Ring ν → List (Mark ν)
  | .marking name => [.entered name]
  | _ => []

def leaving (result : Result) : Ring ν → List (Mark ν)
  | .marking name => [.left name result]
  | _ => []

/-- The answer of a ring that answers by itself. -/
def answer? : Ring ν → Option Result
  | .answering result => some result
  | _ => none

def catches : Ring ν → Bool
  | .catching => true
  | _ => false

/-- The rings that a request passes on its way in: those outside of the first that answers. -/
def passed (stack : List (Ring ν)) : List (Ring ν) := stack.takeWhile fun b => b.answer?.isNone

/-- What is there to go out where the way in ends: the answer of the first ring that answers, or what the handler
comes to. -/
def turn (stack : List (Ring ν)) (handler : Task.Fate Result) : Task.Fate Result :=
  match stack.findSome? answer? with
  | some result => .returned result
  | none => handler

/-- What some rings mark on the way out, the innermost first. A panic passes over those inside of the innermost ring
that catches it, and the others see the failure that it is turned into. -/
def wayOut (passed : List (Ring ν)) : Task.Fate Result → List (Mark ν)
  | .returned result => passed.reverse.flatMap (leaving result)
  | .panicked p => (passed.reverse.dropWhile fun b => !b.catches).flatMap (leaving (.error p.failure))
  | .suspended => []

/-- What one request marks within some rings around a handler. -/
def trail (stack : List (Ring ν)) (handler : Task.Fate Result) : List (Mark ν) :=
  (passed stack).flatMap entering ++ (if stack.all (·.answer?.isNone) then [.handled] else []) ++
    wayOut (passed stack) (turn stack handler)

/-- What some rings make of what they are handed: only a panic that one of them catches is changed. -/
def handOn (passed : List (Ring ν)) : Task.Fate Result → Task.Fate Result
  | .panicked p => if passed.any catches then .returned (.error p.failure) else .panicked p
  | fate => fate

end Ring

namespace Journal

variable (J : Journal σ ν)

/-- The effect that puts a mark. -/
def note (m : Mark ν) : Effect σ := .update (J.put m)

def layer : Ring ν → Layer σ
  | .marking name => fun next ctx req => do
    Task.perform (J.note (.entered name))
    let result ← next ctx req
    Task.perform (J.note (.left name result))
    return result
  | .answering result => fun _ _ _ => return result
  | .catching => Layers.panics

/-- The handler marks each of its runs once, and marks nothing else. -/
def Marks (h : Handler σ) : Prop :=
  ∀ ctx req w, J.marks ((h ctx req).run w).2.shared.service = J.marks w.shared.service ++ [.handled]

/-- A handler that marks each of its runs before it does anything else. -/
def marked (h : Handler σ) : Handler σ := fun ctx req => do
  Task.perform (J.note .handled)
  h ctx req

def of (w : World σ) : List (Mark ν) := J.marks w.shared.service

/-- The world in which rings that a request has passed call the handler inside of them. -/
def entry (passed : List (Ring ν)) (w : World σ) : World σ :=
  w.after ((passed.flatMap Ring.entering).map J.note)

/-- What the handler comes to where some rings call it. -/
def fate (h : Handler σ) (ctx : Context) (req : Request) (stack : List (Ring ν)) (w : World σ) : Task.Fate Result :=
  ((h ctx req).run (J.entry (Ring.passed stack) w)).1

end Journal

/-! ## The way out -/

namespace Ring

variable (b : Ring ν) (stack : List (Ring ν))

/-- An outer ring comes last on the way out, if there is a result for it. -/
theorem wayOut_cons (fate : Task.Fate Result) : wayOut (b :: stack) fate = wayOut stack fate ++
    match (if b.catches then handOn [b] (handOn stack fate) else handOn stack fate) with
    | .returned result => b.leaving result
    | _ => [] := by
  cases fate with
  | returned result => cases b <;> simp [wayOut, handOn, catches]
  | suspended => cases b <;> simp [wayOut, handOn, catches]
  | panicked p =>
    simp only [wayOut, List.reverse_cons, List.dropWhile_append]
    by_cases caught : stack.any catches = true
    · have inner : (stack.reverse.dropWhile fun b => !b.catches).isEmpty = false := by
        obtain ⟨c, hc, hcatches⟩ := List.any_eq_true.mp caught
        rw [List.isEmpty_eq_false_iff, Ne, List.dropWhile_eq_nil_iff]
        intro none
        have := none c (List.mem_reverse.mpr hc)
        rw [hcatches] at this
        cases this
      simp only [inner, handOn, caught, if_true, Bool.false_eq_true, if_false, List.flatMap_append]
      cases b <;> simp [catches]
    · have inner : (stack.reverse.dropWhile fun b => !b.catches) = [] := by
        rw [List.dropWhile_eq_nil_iff]
        intro c hc
        cases hcatches : c.catches with
        | true => exact absurd (List.any_eq_true.mpr ⟨c, List.mem_reverse.mp hc, hcatches⟩) caught
        | false => rfl
      simp only [inner, List.isEmpty_nil, handOn, caught, if_true, Bool.false_eq_true, if_false]
      cases b <;> simp [catches, leaving, List.dropWhile]

variable (fate : Task.Fate Result)

@[simp] theorem answer?_marking (name : ν) : (marking name).answer? = none := rfl
@[simp] theorem answer?_catching : (catching : Ring ν).answer? = none := rfl
@[simp] theorem passed_nil : passed ([] : List (Ring ν)) = [] := rfl
@[simp] theorem passed_marking (name : ν) : passed (.marking name :: stack) = .marking name :: passed stack := rfl
@[simp] theorem passed_catching : passed (.catching :: stack) = .catching :: passed stack := rfl
@[simp] theorem passed_answering (result : Result) : passed (.answering result :: stack) = [] := rfl
@[simp] theorem turn_marking (name : ν) : turn (.marking name :: stack) fate = turn stack fate := rfl
@[simp] theorem turn_catching : turn (.catching :: stack) fate = turn stack fate := rfl
@[simp] theorem turn_answering (result : Result) : turn (.answering result :: stack) fate = .returned result := rfl

/-- A ring outside of all others that marks: its marks are the first and, if there is a result for it, the last. -/
theorem trail_marking (name : ν) : trail (.marking name :: stack) fate =
    .entered name :: trail stack fate ++ match handOn (passed stack) (turn stack fate) with
      | .returned result => [.left name result]
      | _ => [] := by
  simp only [trail, passed_marking, turn_marking, wayOut_cons, catches, Bool.false_eq_true, if_false, leaving,
    List.flatMap_cons, entering, List.all_cons, answer?_marking, Option.isNone_none, Bool.true_and]
  simp

theorem trail_catching : trail (.catching :: stack) fate = trail stack fate := by
  have nothing : ∀ fate : Task.Fate Result, (match fate with
      | .returned result => (.catching : Ring ν).leaving result
      | _ => []) = [] := by
    intro fate
    cases fate <;> rfl
  simp only [trail, passed_catching, turn_catching, wayOut_cons, nothing, List.append_nil, List.flatMap_cons, entering,
    List.nil_append, List.all_cons, answer?_catching, Option.isNone_none, Bool.true_and]

theorem trail_nil : trail ([] : List (Ring ν)) fate = [.handled] := by
  cases fate <;> rfl

theorem trail_answering (result : Result) : trail (.answering result :: stack) fate = [] := by
  simp [trail, wayOut, answer?]

@[simp] theorem handOn_nil : handOn ([] : List (Ring ν)) fate = fate := by
  cases fate <;> rfl

/-- A ring that marks hands on what it is handed, and one that catches panics does so but for panics. -/
theorem handOn_marking (name : ν) : handOn (.marking name :: stack) fate = handOn stack fate := by
  cases fate <;> simp [handOn, catches]

theorem handOn_catching : handOn (.catching :: stack) fate = match handOn stack fate with
    | .panicked p => .returned (.error p.failure)
    | fate => fate := by
  cases fate with
  | panicked p =>
    simp only [handOn, List.any_cons, catches, Bool.true_or, if_true]
    cases stack.any catches <;> rfl
  | returned | suspended => rfl

end Ring

/-! ## Runs within rings -/

namespace Journal

section
variable (J : Journal σ ν) (h : Handler σ) (ctx : Context) (req : Request) (w : World σ)

theorem of_note (m : Mark ν) : J.of (w.after [J.note m]) = J.of w ++ [m] := J.marks_put m _

variable (stack : List (Ring ν))

theorem fate_marking (name : ν) : J.fate h ctx req (.marking name :: stack) w =
    J.fate h ctx req stack (w.after [J.note (.entered name)]) := rfl

theorem fate_catching : J.fate h ctx req (.catching :: stack) w = J.fate h ctx req stack w := rfl

/-- A handler that is recorded marks the same, and comes to the same. -/
theorem marks_recorded : J.of ((Handler.recorded h ctx req).run w).2 = J.of ((h ctx req).run w).2 ∧
    ((Handler.recorded h ctx req).run w).1 = ((h ctx req).run w).1 := by
  rw [run_recorded]
  split
  · next hrun => exact ⟨by rw [hrun]; rfl, by rw [hrun]⟩
  · exact ⟨rfl, rfl⟩

theorem run_marking (name : ν) : (J.layer (.marking name) h ctx req).run w =
    match (h ctx req).run (w.after [J.note (.entered name)]) with
    | (.returned result, w) => (.returned result, w.after [J.note (.left name result)])
    | fate => fate := by
  simp only [layer, Task.perform, Task.bind_eq, Task.bind, Task.run, Task.run_bind, World.after, List.foldl]
  split <;> simp_all [Task.run]

variable {h}

/-- Whatever else a handler does that puts no marks, it marks its run once if it marks it first. -/
theorem marks_marked (quiet : ∀ ctx req w, J.of ((h ctx req).run w).2 = J.of w) : J.Marks (J.marked h) :=
  fun ctx req w => (quiet ctx req (w.after [J.note .handled])).trans (J.of_note w .handled)

/-- What a run within some rings marks, and what it comes to. -/
theorem marks_within (once : J.Marks h) :
    J.of ((h.within (stack.map J.layer) ctx req).run w).2 =
        J.of w ++ Ring.trail stack (J.fate h ctx req stack w) ∧
      ((h.within (stack.map J.layer) ctx req).run w).1 =
        Ring.handOn (Ring.passed stack) (Ring.turn stack (J.fate h ctx req stack w)) := by
  induction stack generalizing w with
  | nil =>
    obtain ⟨marks, comes⟩ := J.marks_recorded h ctx req w
    refine ⟨(marks.trans (once ctx req w)).trans ?_, comes.trans ?_⟩
    · simp only [Ring.trail_nil]
      rfl
    · rw [Ring.passed_nil, Ring.handOn_nil]
      rfl
  | cons b stack ih =>
    have outermost : h.within ((b :: stack).map J.layer) =
        Handler.recorded (J.layer b (h.within (stack.map J.layer))) := rfl
    obtain ⟨marks, comes⟩ := J.marks_recorded (J.layer b (h.within (stack.map J.layer))) ctx req w
    rw [outermost, marks, comes]
    cases b with
    | marking name =>
      have inner := ih (w.after [J.note (.entered name)])
      rw [of_note] at inner
      rw [run_marking, fate_marking, Ring.trail_marking, Ring.passed_marking, Ring.turn_marking, Ring.handOn_marking,
        ← inner.2]
      rcases hrun : (h.within (stack.map J.layer) ctx req).run (w.after [J.note (.entered name)]) with ⟨fate, w'⟩
      rw [hrun] at inner
      cases fate with
      | returned result => exact ⟨by simp [of_note, inner.1], rfl⟩
      | panicked p => exact ⟨by simp [inner.1], rfl⟩
      | suspended => exact ⟨by simp [inner.1], rfl⟩
    | answering result =>
      rw [Ring.trail_answering, Ring.passed_answering, Ring.turn_answering]
      exact ⟨(List.append_nil _).symm, rfl⟩
    | catching =>
      have inner := ih w
      rw [fate_catching, Ring.trail_catching, Ring.passed_catching, Ring.turn_catching, Ring.handOn_catching, ← inner.2,
        layer, run_panics]
      rcases hrun : (h.within (stack.map J.layer) ctx req).run w with ⟨fate, w'⟩
      rw [hrun] at inner
      cases fate with
      | returned result => exact ⟨inner.1, rfl⟩
      | panicked p => exact ⟨inner.1, rfl⟩
      | suspended => exact ⟨inner.1, rfl⟩

end

end Journal

/-! ## Requests -/

namespace App

section
variable (J : Journal σ ν) {h : Handler σ} {app : App σ} {base extra : List (Ring ν)} {r : Incoming}
  {req : Request}

/-- The layers of the application and those of the route are one stack. -/
theorem chain_rings (layers : app.layers = base.map J.layer) :
    app.chain (extra.map J.layer) h = h.within ((base ++ extra).map J.layer) := by
  rw [chain_eq_within, layers, List.map_append]

/-- **Layers nest.** One request marks, after what is marked already: on its way in, the rings of the application and
then those of the route, in their order, down to the first that answers by itself or to the handler, which runs once
if no ring answers and else not at all; on its way out, the rings that it has passed, in reverse order. If the handler
panics, only the rings outside of the innermost one that catches panics mark it, and they see the failure that the
panic is turned into; if none catches panics, none marks it. Another application and another route, with the same
rings split up in another way, do the very same with the request. -/
theorem layers_nest (layers : app.layers = base.map J.layer) (once : J.Marks h)
    (reaches : app.Reaches r (app.chain (extra.map J.layer) h) req) (s : State σ) (t : Time) :
    J.marks (app.call r s t).2.shared.service = J.marks s.shared.service ++
        Ring.trail (base ++ extra)
          (J.fate h ⟨Context.traceOf s.contexts, t⟩ req (base ++ extra) { shared := s.shared }) ∧
      ∀ (app' : App σ) (base' extra' : List (Ring ν)), app'.layers = base'.map J.layer →
        base' ++ extra' = base ++ extra → app'.Reaches r (app'.chain (extra'.map J.layer) h) req →
        app'.call r s t = app.call r s t := by
  constructor
  · obtain ⟨log, shared⟩ := reaches.call_shared s t
    rw [shared, chain_rings J layers]
    exact (J.marks_within _ _ _ _ once).1
  · intro app' base' extra' layers' same reaches'
    rw [call_eq, call_eq, reaches.dispatch, reaches'.dispatch, chain_rings J layers, chain_rings J layers', same]

end

/-- A service that keeps nothing but marks. -/
def journal : Journal (List (Mark String)) String where
  marks := id
  put m marks := marks ++ [m]
  marks_put _ _ := rfl

def faintingHandler : Handler (List (Mark String)) := journal.marked fun _ _ => .panicked .other

def faintingApp (base extra : List (Ring String)) : App (List (Mark String)) :=
  (handle { layers := base.map journal.layer } .get "v1" "faints" faintingHandler (extra.map journal.layer)).2

/-- A request for it, as it comes in and as a handler sees it. -/
def faintingRequest : Incoming := { target := { origin := "", path := "/v1/faints", query := none } }

theorem faintingApp_layers (base extra : List (Ring String)) :
    (faintingApp base extra).layers = base.map journal.layer := by
  rw [faintingApp, handle_eq]

theorem faintingApp_reaches (base extra : List (Ring String)) :
    (faintingApp base extra).Reaches faintingRequest
      ((faintingApp base extra).chain (extra.map journal.layer) faintingHandler)
      { method := .get, target := faintingRequest.target, headers := [], body := [], params := [] } where
  method := rfl
  route := by
    rw [faintingApp, handle_eq]
    rfl
  body := rfl
  target := rfl
  headers := rfl
  remote := rfl

/-- Within two rings that mark, one on either side of one that catches panics, the inner one does not mark that the
request goes out; and it is the same where two of the rings are those of the route. -/
theorem layers_nest_fainting :
    ((faintingApp [.marking "outer", .catching, .marking "inner"] []).call faintingRequest
        { shared := { service := [] } }).2.shared.service =
      [.entered "outer", .entered "inner", .handled, .left "outer" (.error (Panic.failure .other))] ∧
    (faintingApp [.marking "outer"] [.catching, .marking "inner"]).call faintingRequest
        { shared := { service := [] } } =
      (faintingApp [.marking "outer", .catching, .marking "inner"] []).call faintingRequest
        { shared := { service := [] } } := by
  obtain ⟨marks, split⟩ := layers_nest journal (faintingApp_layers _ _)
    (journal.marks_marked fun _ _ _ => rfl)
    (faintingApp_reaches [.marking "outer", .catching, .marking "inner"] []) { shared := { service := [] } } .epoch
  exact ⟨marks, split _ _ _ (faintingApp_layers _ _) rfl (faintingApp_reaches _ _)⟩

end App

end JsonService
