import JsonService.Health
import JsonService.Proofs.Layers.Answers

/-!
# What stays inside

Some of what a handler says is not for the client: the message of an unexpected failure, the reason of a
shutdown, what a panic leaves behind, why a value could not be written, why a readiness check failed. Here two
runs are compared that differ in such secrets and in nothing else.

**Two runs (`RunAlike`).** They end alike, and leave worlds that differ in their logs at most. Two handlers are
the same but for secrets (`SameButSecrets`) if they run alike from all such worlds. Panics may differ only where
something catches them, since an uncaught one is no answer at all.

**Results.**
* `response_alike`: failures that differ in secrets have the same response.
* `respond_alike`, `readinessWith_alike`: neither a value without a text nor a failed check shows why.
* `alike_layer`, `alike_within`: built-in layers keep two handlers the same but for secrets, and the layer for
  panics makes two panics a failure that differs in its secrets only.
* `secrets_stay_inside`: so two services with handlers that are the same but for secrets give the same answers.
-/
namespace JsonService

variable {σ α β γ δ : Type}

/-! ## Two failures and two runs -/

/-- Whether the client is told of a failure no more than that the server has failed. -/
def Failure.isConcealed : Failure → Bool
  | .unexpected _ | .validation [] => true
  | _ => false

/-- Failures that differ at most in what the client must not learn. A validation without a failing field counts
as an unexpected failure. -/
inductive Failure.Alike : Failure → Failure → Prop
  | same (e : Failure) : Alike e e
  | concealed {e₁ e₂ : Failure} (h₁ : e₁.isConcealed = true) (h₂ : e₂.isConcealed = true) : Alike e₁ e₂
  | shutdown (reason₁ reason₂ : String) : Alike (.shutdown reason₁) (.shutdown reason₂)

/-- Results that differ at most in what the client must not learn. -/
inductive ResultAlike : Result → Result → Prop
  | ok (res : Response) : ResultAlike (.ok res) (.ok res)
  | error {e₁ e₂ : Failure} (h : e₁.Alike e₂) : ResultAlike (.error e₁) (.error e₂)

/-- Worlds that differ at most in their logs. -/
def World.Alike (w₁ w₂ : World σ) : Prop := w₁.setLog [] = w₂.setLog []

/-- Runs that end alike, with related values, and leave worlds alike. If panics are caught they may be any two. -/
inductive RunAlike (caught : Prop) (R : α → β → Prop) : Task.Fate α × World σ → Task.Fate β × World σ → Prop
  | returned {a : α} {b : β} {w₁ w₂ : World σ} (h : R a b) (hw : w₁.Alike w₂) :
    RunAlike caught R (.returned a, w₁) (.returned b, w₂)
  | panicked {p q : Panic} {w₁ w₂ : World σ} (h : caught ∨ p = q) (hw : w₁.Alike w₂) :
    RunAlike caught R (.panicked p, w₁) (.panicked q, w₂)
  | suspended {w₁ w₂ : World σ} (hw : w₁.Alike w₂) : RunAlike caught R (.suspended, w₁) (.suspended, w₂)

/-- Tasks that run alike from all worlds that differ at most in their logs. -/
def TaskAlike (caught : Prop) (R : α → β → Prop) (t₁ : Task σ α) (t₂ : Task σ β) : Prop :=
  ∀ w₁ w₂ : World σ, w₁.Alike w₂ → RunAlike caught R (t₁.run w₁) (t₂.run w₂)

/-- Handlers that are the same but for secrets, each in its context; whether their panics are secrets depends on
whether these are caught. -/
def Handler.SameButSecrets (caught : Prop) (ctx₁ ctx₂ : Context) (h₁ h₂ : Handler σ) : Prop :=
  ∀ req, TaskAlike caught ResultAlike (h₁ ctx₁ req) (h₂ ctx₂ req)

/-! ## What failures show -/

namespace Failure
variable {e₁ e₂ : Failure}

theorem Alike.isShutdown_eq (h : e₁.Alike e₂) : e₁.isShutdown = e₂.isShutdown := by
  cases h with
  | same => rfl
  | shutdown => rfl
  | concealed h₁ h₂ =>
    have plain : ∀ e : Failure, e.isConcealed = true → e.isShutdown = false := by
      intro e he
      cases e <;> simp_all [isConcealed, isShutdown]
    rw [plain e₁ h₁, plain e₂ h₂]

/-- The client is told the same. -/
theorem response_alike (h : e₁.Alike e₂) : e₁.response = e₂.response := by
  cases h with
  | same => rfl
  | shutdown => rfl
  | concealed h₁ h₂ =>
    have concealed : ∀ e : Failure, e.isConcealed = true → e.response = (unexpected "").response := by
      intro e he
      match e, he with
      | .unexpected _, _ => rfl
      | .validation [], _ => rfl
    rw [concealed e₁ h₁, concealed e₂ h₂]

theorem Alike.status_eq (h : e₁.Alike e₂) : e₁.status = e₂.status :=
  congrArg Response.status (response_alike h)

theorem Alike.answerStatus_eq (h : e₁.Alike e₂) : e₁.answerStatus = e₂.answerStatus := by
  simp only [answerStatus, h.isShutdown_eq, h.status_eq]

theorem Alike.rendered (h : e₁.Alike e₂) : ResultAlike e₁.rendered e₂.rendered := by
  simp only [Failure.rendered, h.isShutdown_eq, response_alike h]
  split
  · exact .error h
  · exact .ok _

end Failure

/-- Two panics are turned into failures that differ in their secrets only. -/
theorem Panic.failure_alike (p q : Panic) : p.failure.Alike q.failure := .concealed rfl rfl

/-! ## Runs side by side -/

theorem RunAlike.mono {caught caught' : Prop} {R : α → β → Prop} {r₁ : Task.Fate α × World σ}
    {r₂ : Task.Fate β × World σ} (h : RunAlike caught R r₁ r₂) (himp : caught → caught') :
    RunAlike caught' R r₁ r₂ := by
  cases h with
  | returned h hw => exact .returned h hw
  | panicked h hw => exact .panicked (h.imp_left himp) hw
  | suspended hw => exact .suspended hw

theorem World.Alike.effect {w₁ w₂ : World σ} (h : w₁.Alike w₂) (e : Effect σ) :
    (e.apply w₁).Alike (e.apply w₂) := by
  have same : ∀ w : World σ, (e.apply w).setLog [] = (e.apply (w.setLog [])).setLog [] := by
    intro w
    rw [Effect.apply_setLog, World.setLog_setLog]
  unfold World.Alike at h ⊢
  rw [same w₁, same w₂, h]

theorem World.Alike.log {w₁ w₂ : World σ} (h : w₁.Alike w₂) (event₁ event₂ : Log.Event) :
    (w₁.after [.log event₁]).Alike (w₂.after [.log event₂]) := h

theorem World.Alike.after {w₁ w₂ : World σ} (h : w₁.Alike w₂) (es : List (Effect σ)) :
    (w₁.after es).Alike (w₂.after es) := by
  induction es generalizing w₁ w₂ with
  | nil => exact h
  | cons e es ih => exact ih (h.effect e)

section
variable {caught : Prop} {R : α → β → Prop} {S : γ → δ → Prop}

theorem TaskAlike.bind {t₁ : Task σ α} {t₂ : Task σ β} {f₁ : α → Task σ γ} {f₂ : β → Task σ δ}
    (ht : TaskAlike caught R t₁ t₂) (hf : ∀ a b, R a b → TaskAlike caught S (f₁ a) (f₂ b)) :
    TaskAlike caught S (t₁.bind f₁) (t₂.bind f₂) := by
  intro w₁ w₂ hw
  have inner := ht w₁ w₂ hw
  rw [Task.run_bind, Task.run_bind]
  generalize t₁.run w₁ = r₁ at inner
  generalize t₂.run w₂ = r₂ at inner
  cases inner with
  | returned h hw => exact hf _ _ h _ _ hw
  | panicked h hw => exact .panicked h hw
  | suspended hw => exact .suspended hw

theorem TaskAlike.respond (value : Except String Json) (status : Status) :
    TaskAlike (σ := σ) caught ResultAlike (respond value status) (respond value status) := by
  intro w₁ w₂ hw
  have world := hw.effect (.record status)
  simp only [JsonService.respond, Task.record, Task.perform, Task.bind_eq, Task.bind, Task.run]
  split
  · exact .returned (.ok _) world
  · cases value with
    | error reason => exact .returned (.error (.same _)) world
    | ok v => exact .returned (.ok _) world

/-- Why a value has no text is a secret. -/
theorem respond_alike (reason₁ reason₂ : String) (status : Status) :
    TaskAlike (σ := σ) caught ResultAlike (respond (.error reason₁) status) (respond (.error reason₂) status) := by
  intro w₁ w₂ hw
  have world := hw.effect (.record status)
  simp only [JsonService.respond, Task.record, Task.perform, Task.bind_eq, Task.bind, Task.run]
  split
  · exact .returned (.ok _) world
  · exact .returned (.error (.concealed rfl rfl)) world

end

/-- What two checks come to if they differ at most in why they fail. -/
def CheckAlike : Except String Unit → Except String Unit → Prop
  | .ok _, .ok _ => True
  | .error _, .error _ => True
  | _, _ => False

/-- Why a service is not ready is a secret. -/
theorem readinessWith_alike {caught : Prop} {ctx₁ ctx₂ : Context} {check₁ check₂ : Task σ (Except String Unit)}
    (h : TaskAlike caught CheckAlike check₁ check₂) :
    Handler.SameButSecrets caught ctx₁ ctx₂ (Health.readinessWith check₁) (Health.readinessWith check₂) := by
  intro req
  refine TaskAlike.bind h ?_
  intro a b hab
  match a, b, hab with
  | .ok _, .ok _, _ => exact .respond _ _
  | .error reason₁, .error reason₂, _ =>
    exact fun w₁ w₂ hw => TaskAlike.respond (.ok (Health.status "not ready")) .unavailable _ _ (hw.log _ _)

/-! ## Layers -/

section
variable {caught : Prop} {ctx₁ ctx₂ : Context} {h₁ h₂ : Handler σ}

theorem Handler.SameButSecrets.mono {caught' : Prop} (h : Handler.SameButSecrets caught ctx₁ ctx₂ h₁ h₂)
    (himp : caught → caught') : Handler.SameButSecrets caught' ctx₁ ctx₂ h₁ h₂ :=
  fun req w₁ w₂ hw => (h req w₁ w₂ hw).mono himp

theorem alike_recorded (h : Handler.SameButSecrets caught ctx₁ ctx₂ h₁ h₂) :
    Handler.SameButSecrets caught ctx₁ ctx₂ (Handler.recorded h₁) (Handler.recorded h₂) := by
  intro req w₁ w₂ hw
  have inner := h req w₁ w₂ hw
  rw [run_recorded, run_recorded]
  generalize (h₁ ctx₁ req).run w₁ = r₁ at inner
  generalize (h₂ ctx₂ req).run w₂ = r₂ at inner
  cases inner with
  | returned h hw =>
    cases h with
    | ok res => exact .returned (.ok res) (hw.after _)
    | error h => exact .returned (.error h) hw
  | panicked h hw => exact .panicked h hw
  | suspended hw => exact .suspended hw

theorem alike_logger (h : Handler.SameButSecrets caught ctx₁ ctx₂ h₁ h₂) :
    Handler.SameButSecrets caught ctx₁ ctx₂ (Layers.logger h₁) (Layers.logger h₂) := by
  intro req w₁ w₂ hw
  have inner := h req _ _ (hw.log (Layers.started ctx₁ req) (Layers.started ctx₂ req))
  rw [run_logger, run_logger]
  generalize (h₁ ctx₁ req).run _ = r₁ at inner
  generalize (h₂ ctx₂ req).run _ = r₂ at inner
  cases inner with
  | returned h hw => exact .returned h (hw.log _ _)
  | panicked h hw => exact .panicked h hw
  | suspended hw => exact .suspended hw

theorem alike_errors (h : Handler.SameButSecrets caught ctx₁ ctx₂ h₁ h₂) :
    Handler.SameButSecrets caught ctx₁ ctx₂ (Layers.errors h₁) (Layers.errors h₂) := by
  intro req w₁ w₂ hw
  have inner := h req w₁ w₂ hw
  rw [run_errors, run_errors]
  generalize (h₁ ctx₁ req).run _ = r₁ at inner
  generalize (h₂ ctx₂ req).run _ = r₂ at inner
  cases inner with
  | @returned _ _ v₁ v₂ h hw =>
    cases h with
    | ok res => exact .returned (.ok res) hw
    | @error e₁ e₂ h =>
      have world : (v₁.after [.log (Layers.reported ctx₁ e₁), .record e₁.answerStatus]).Alike
          (v₂.after [.log (Layers.reported ctx₂ e₂), .record e₂.answerStatus]) := by
        rw [h.answerStatus_eq]
        exact (hw.log _ _).after [.record _]
      exact .returned h.rendered world
  | panicked h hw => exact .panicked h hw
  | suspended hw => exact .suspended hw

theorem alike_metrics (h : Handler.SameButSecrets caught ctx₁ ctx₂ h₁ h₂) :
    Handler.SameButSecrets caught ctx₁ ctx₂ (Layers.metrics h₁) (Layers.metrics h₂) := by
  intro req w₁ w₂ hw
  have inner := h req _ _ (hw.after [.count Counters.requests])
  rw [run_metrics, run_metrics]
  generalize (h₁ ctx₁ req).run _ = r₁ at inner
  generalize (h₂ ctx₂ req).run _ = r₂ at inner
  cases inner with
  | returned h hw =>
    cases h with
    | ok res => exact .returned (.ok res) hw
    | error h => exact .returned (.error h) (hw.after _)
  | panicked h hw => exact .panicked h hw
  | suspended hw => exact .suspended hw

/-- After the layer for panics no panic differs: any two became failures that differ in secrets only. -/
theorem alike_panics (h : Handler.SameButSecrets caught ctx₁ ctx₂ h₁ h₂) :
    Handler.SameButSecrets False ctx₁ ctx₂ (Layers.panics h₁) (Layers.panics h₂) := by
  intro req w₁ w₂ hw
  have inner := h req w₁ w₂ hw
  rw [run_panics, run_panics]
  generalize (h₁ ctx₁ req).run _ = r₁ at inner
  generalize (h₂ ctx₂ req).run _ = r₂ at inner
  cases inner with
  | returned h hw => exact .returned h hw
  | panicked h hw => exact .returned (.error (Panic.failure_alike _ _)) ((hw.after [.count _]).log _ _)
  | suspended hw => exact .suspended hw

/-- A built-in layer keeps two handlers the same but for secrets. -/
theorem alike_layer (h : Handler.SameButSecrets caught ctx₁ ctx₂ h₁ h₂) (b : Builtin) :
    Handler.SameButSecrets (caught ∧ b ≠ .panics) ctx₁ ctx₂ (b.layer h₁) (b.layer h₂) := by
  cases b with
  | logger => exact (alike_logger h).mono fun hc => ⟨hc, nofun⟩
  | errors => exact (alike_errors h).mono fun hc => ⟨hc, nofun⟩
  | metrics => exact (alike_metrics h).mono fun hc => ⟨hc, nofun⟩
  | panics => exact (alike_panics h).mono False.elim

/-- Within built-in layers, too, handlers are the same but for secrets, and no panic differs if one of the layers
catches panics. -/
theorem alike_within (h : Handler.SameButSecrets caught ctx₁ ctx₂ h₁ h₂) (stack : List Builtin) :
    Handler.SameButSecrets (caught ∧ .panics ∉ stack) ctx₁ ctx₂ (h₁.within (stack.map Builtin.layer))
      (h₂.within (stack.map Builtin.layer)) := by
  induction stack with
  | nil => exact (alike_recorded h).mono fun hc => ⟨hc, nofun⟩
  | cons b stack ih =>
    refine (alike_recorded (alike_layer ih b)).mono ?_
    rintro ⟨⟨hc, hs⟩, hb⟩
    exact ⟨hc, by simp [hs, Ne.symm hb]⟩

end

/-! ## Answers -/

namespace App

/-- Runs that differ in secrets at most show the same. -/
theorem shown_alike {r₁ r₂ : Task.Fate Result × World σ} (h : RunAlike False ResultAlike r₁ r₂) :
    (r₁.1.map Ending.ofResult).map Ending.shown = (r₂.1.map Ending.ofResult).map Ending.shown := by
  cases h with
  | returned h =>
    cases h with
    | ok res => rfl
    | error h =>
      simp only [Task.Fate.map, Ending.ofResult, h.isShutdown_eq]
      split
      · rfl
      · rw [Failure.response_alike h]
  | panicked h => rw [h.resolve_left id]
  | suspended => rfl

/-- An endpoint with two handlers in place of one, and the layers of its own. -/
structure Twins (σ : Type) where
  endpoint : Endpoint σ
  other : Handler σ
  extra : List Builtin

namespace Twins

def first (e : Twins σ) : Endpoint σ × List Builtin := (e.endpoint, e.extra)

def second (e : Twins σ) : Endpoint σ × List Builtin := ({ e.endpoint with handler := e.other }, e.extra)

end Twins

/-- Two services whose handlers are the same but for secrets answer every request alike, whichever built-in
layers they have, and both signal the server to stop or neither does. The secrets are the message of an
unexpected failure, with which a validation without a failing field may be exchanged, the reason of a shutdown,
what a panic leaves behind that is caught, why a value has no text, and why a readiness check fails. -/
theorem secrets_stay_inside (wrap : List Builtin) (routes : List (Twins σ)) (r : Incoming) (s₁ s₂ : State σ)
    (t₁ t₂ : Time) (hworld : World.Alike { shared := s₁.shared } { shared := s₂.shared })
    (hsecret : ∀ e ∈ routes, Handler.SameButSecrets (.panics ∈ wrap ++ e.extra)
      ⟨Context.traceOf s₁.contexts, t₁⟩ ⟨Context.traceOf s₂.contexts, t₂⟩ e.endpoint.handler e.other) :
    Alike (ofBuiltins wrap (routes.map Twins.first)) (ofBuiltins wrap (routes.map Twins.second)) r s₁ s₂ t₁ t₂ ∧
    (∀ (caught : Prop) (reason₁ reason₂ : String) (status : Status), TaskAlike (σ := σ) caught ResultAlike
      (respond (.error reason₁) status) (respond (.error reason₂) status)) ∧
    (∀ (caught : Prop) (ctx₁ ctx₂ : Context) (check₁ check₂ : Task σ (Except String Unit)),
      TaskAlike caught CheckAlike check₁ check₂ → Handler.SameButSecrets caught ctx₁ ctx₂
        (Health.readinessWith check₁) (Health.readinessWith check₂)) ∧
    (∀ message : String, (Failure.validation []).response = (Failure.unexpected message).response) := by
  refine ⟨?_, fun _ => respond_alike, fun _ _ _ _ _ => readinessWith_alike,
    fun _ => Failure.response_alike (.concealed rfl rfl)⟩
  -- what is known of the handlers travels with them through the table
  obtain ⟨routes, rfl⟩ : ∃ good : List { e : Twins σ // Handler.SameButSecrets (.panics ∈ wrap ++ e.extra)
      ⟨Context.traceOf s₁.contexts, t₁⟩ ⟨Context.traceOf s₂.contexts, t₂⟩ e.endpoint.handler e.other },
      good.map Subtype.val = routes :=
    ⟨routes.attachWith _ hsecret, List.attachWith_map_subtype_val _⟩
  simp only [List.map_map, Function.comp_def]
  have h₁ := ofBuiltins_routes wrap (fun e => e.val.endpoint) (fun e => e.val.extra) routes
  have h₂ := ofBuiltins_routes wrap (fun e => e.val.second.1) (fun e => e.val.extra) routes
  refine call_alike_of_shown
    (dispatch_related (R := fun f g => f.map Ending.shown = g.map Ending.shown) (fun _ => rfl) h₁ h₂ ?_ r)
  intro twins req
  obtain ⟨e, he⟩ := twins
  exact shown_alike ((alike_within he (wrap ++ e.extra)).mono (fun h => h.2 h.1) req _ _ hworld)

/-- Handlers with secrets of every kind. The service catches what its last endpoint panics with. -/
def secretive : List (Twins Unit) :=
  [⟨⟨.get, "v1", "fails", fun _ _ => .done (.error (.unexpected "no disk"))⟩,
      fun _ _ => .done (.error (.validation [])), []⟩,
   ⟨⟨.get, "v1", "stops", fun _ _ => .done (.error (.shutdown "no disk"))⟩,
      fun _ _ => .done (.error (.shutdown "no memory")), []⟩,
   ⟨⟨.get, "v1", "writes", fun _ _ => respond (.error "key must be a string") .ok⟩,
      fun _ _ => respond (.error "no text") .ok, []⟩,
   ⟨⟨.get, "v1", "ready", Health.readinessWith (.done (.error "no disk"))⟩,
      Health.readinessWith (.done (.error "no memory")), []⟩,
   ⟨⟨.get, "v1", "panics", fun _ _ => .panicked (.text "no disk")⟩, fun _ _ => .panicked .other, [.panics]⟩]

/-- Whichever of their secrets they have, they give the same answers. -/
theorem secrets_stay_inside_secretive :
    (World.Alike (σ := Unit) { shared := { service := () } } { shared := { service := () } } ∧
      ∀ e ∈ secretive, Handler.SameButSecrets (.panics ∈ [.errors] ++ e.extra) ⟨Context.traceOf 0, .epoch⟩
        ⟨Context.traceOf 0, .epoch⟩ e.endpoint.handler e.other) ∧
    Alike (ofBuiltins [.errors] (secretive.map Twins.first)) (ofBuiltins [.errors] (secretive.map Twins.second))
      panickingRequest { shared := { service := () } } { shared := { service := () } } .epoch .epoch := by
  have secret : ∀ e ∈ secretive, Handler.SameButSecrets (.panics ∈ [.errors] ++ e.extra)
      ⟨Context.traceOf 0, .epoch⟩ ⟨Context.traceOf 0, .epoch⟩ e.endpoint.handler e.other := by
    simp only [secretive, List.forall_mem_cons]
    refine ⟨?_, ?_, ?_, ?_, ?_, by simp⟩
    · exact fun req w₁ w₂ hw => .returned (.error (.concealed rfl rfl)) hw
    · exact fun req w₁ w₂ hw => .returned (.error (.shutdown _ _)) hw
    · exact fun req => respond_alike _ _ _
    · exact readinessWith_alike fun w₁ w₂ hw => .returned trivial hw
    · exact fun req w₁ w₂ hw => .panicked (Or.inl (by decide)) hw
  exact ⟨⟨rfl, secret⟩, (secrets_stay_inside [.errors] secretive panickingRequest
    { shared := { service := () } } { shared := { service := () } } .epoch .epoch rfl secret).1⟩

end App

end JsonService
