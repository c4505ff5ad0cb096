import JsonService.Proofs.Contexts.Sharing

/-!
# What the recorded status tells

`respond` records the status before it knows whether the value has a text. So the status in a context is the one of the
last attempt to respond, also if that attempt has failed and there is no response of that status.

**Responses.** `Contexts.response?` is the response that a step has come to, with the context it is on;
`Contexts.responses` are those of a run, with the origins of their contexts.

**Plain steps (`Plain`).** A step is plain if nothing is recorded in it without a response: an attempt to respond
succeeds, or fails with a status that is recorded already; a handler comes to a response or has recorded nothing itself.

**Results.**
* `run_respond`: what comes of responding, and what it changes.
* `recorded_plain`: in a run of plain steps the status is the one of the last response of the family.
* `status_tells`: both, for the contexts of every run.
* `failed_respond_recorded`: a failed attempt leaves a status of which there is no response.
-/
namespace JsonService

variable {σ : Type}

/-! ## Responding -/

/-- What comes of responding. -/
def responseTo (value : Except String Json) (status : Status) : Result :=
  if status.isBodiless then .ok (.ofStatus status)
  else match value with
    | .error reason => .error (.ofJson (Json.repeated reason))
    | .ok v => .ok ((({} : Response.Builder).withStatus status).json (Text.Utf8.bytes v.render))

/-- Responding comes to an end at once. It records the status, whatever comes of it, and changes nothing else. -/
theorem run_respond (value : Except String Json) (status : Status) (w : World σ) :
    (respond value status).run w = (.returned (responseTo value status), { w with request.status := some status }) := by
  simp only [respond, responseTo, Task.bind_eq, Task.record, Task.perform, Task.bind, Task.run]
  split
  · rfl
  · cases value <;> rfl

/-- An attempt to respond fails only if there is to be a body and the value has no text. -/
theorem responseTo_fails (value : Except String Json) (status : Status) :
    (∃ e, responseTo value status = .error e) ↔ status.isBodiless = false ∧ ∃ reason, value = .error reason := by
  simp only [responseTo]
  cases status.isBodiless <;> cases value <;> simp

theorem responseTo_status {value : Except String Json} {status : Status} {res : Response}
    (h : responseTo value status = .ok res) : res.status = status := by
  simp only [responseTo] at h
  split at h
  · cases h
    rfl
  · split at h <;> cases h
    rfl

namespace Contexts

/-! ## Responses -/

/-- The status of the response that a step has come to, with the number of the context that it is on. -/
def response? (cs : Contexts) : Step → Option (Nat × Status)
  | .answer n value status => ((JsonService.respond value status).run (cs.world n)).1.status?.map (n, ·)
  | .call n handler req => ((handler (cs.context n) req).run (cs.world n)).1.status?.map (n, ·)
  | .clone _ | .create | .cancel _ | .cancelChild _ | .increment _ | .nothing => none

/-- The responses of a run, in order, each with the origin of its context. -/
def responses (cs : Contexts) (p : Past) : List Step → List (Nat × Status)
  | [] => []
  | step :: steps => ((cs.response? step).map fun r => (p.origin r.1, r.2)).toList ++
      (cs.step step).responses (p.after cs step) steps

/-- The status of the last of some responses in a family. -/
def lastOf (origin : Nat) (rs : List (Nat × Status)) : Option Status :=
  (rs.filterMap fun r => if r.1 = origin then some r.2 else none).getLast?

theorem lastOf_append (origin : Nat) (rs rs' : List (Nat × Status)) :
    lastOf origin (rs ++ rs') = (lastOf origin rs').or (lastOf origin rs) := by
  rw [lastOf, List.filterMap_append, List.getLast?_append]
  rfl

/-- Nothing is recorded in a step without a response. -/
def Plain (cs : Contexts) : Step → Prop
  | .answer n value status => (∃ res, responseTo value status = .ok res) ∨ (cs.state n).status = some status
  | .call n handler req => (∃ status, ((handler (cs.context n) req).run (cs.world n)).1.status? = some status) ∨
      ((handler (cs.context n) req).took (cs.world n)).filterMap Effect.recorded? = []
  | .clone _ | .create | .cancel _ | .cancelChild _ | .increment _ | .nothing => True

def AllPlain (cs : Contexts) : List Step → Prop
  | [] => True
  | step :: steps => cs.Plain step ∧ (cs.step step).AllPlain steps

section
variable {p : Past} {cs : Contexts}

theorem response?_on {step : Step} {r : Nat × Status} (h : cs.response? step = some r) :
    r.1 = (cs.effects step).1 := by
  cases step with
  | answer n value status | call n handler req =>
    obtain ⟨status, -, rfl⟩ := Option.map_eq_some_iff.mp h
    rfl
  | _ => cases h

theorem recorded_effects (K : Kin p cs) {step : Step} (plain : cs.Plain step) :
    ((cs.effects step).2.filterMap Effect.recorded?).getLast?.or (p.recorded (p.origin (cs.effects step).1)) =
      ((cs.response? step).map (·.2)).or (p.recorded (p.origin (cs.effects step).1)) := by
  cases step with
  | answer n value status =>
    simp only [effects, response?, run_respond]
    cases hr : responseTo value status with
    | ok res => simp [Task.Fate.status?, Effect.recorded?, responseTo_status hr]
    | error e =>
      -- the status that is recorded once more is there already
      rcases plain with ⟨res, ok⟩ | there
      · rw [hr] at ok
        cases ok
      · simp [Task.Fate.status?, Effect.recorded?, ← K.status_eq, there]
  | call n handler req =>
    simp only [effects, response?, List.filterMap_append]
    rcases plain with ⟨status, came⟩ | silent
    · simp [came, Effect.recorded?]
    · rw [silent]
      cases ((handler (cs.context n) req).run (cs.world n)).1.status? <;> simp [Effect.recorded?]
  | _ => rfl

/-- After a plain step the status is the one of its response, if there is one in the family. -/
theorem recorded_plain_step (K : Kin p cs) {step : Step} (plain : cs.Plain step) (origin : Nat) :
    (p.after cs step).recorded origin =
      (lastOf origin ((cs.response? step).map fun r => (p.origin r.1, r.2)).toList).or (p.recorded origin) := by
  have last := recorded_effects K plain
  rw [Past.recorded, Past.after_done, List.filterMap_append, List.getLast?_append, ← Past.recorded]
  by_cases same : p.origin (cs.effects step).1 = origin
  · rw [same] at last
    rw [if_pos same, last]
    cases hr : cs.response? step with
    | none => rfl
    | some r => simp [lastOf, response?_on hr, same]
  · rw [if_neg same]
    cases hr : cs.response? step with
    | none => rfl
    | some r => simp [lastOf, response?_on hr, same]

/-- In a run of plain steps the status is the one of the last response of the family. -/
theorem recorded_plain (K : Kin p cs) {steps : List Step} (plain : cs.AllPlain steps) (origin : Nat) :
    (cs.told p steps).2.recorded origin = (lastOf origin (cs.responses p steps)).or (p.recorded origin) := by
  induction steps generalizing cs p with
  | nil => rfl
  | cons step steps ih =>
    rw [told, ih (K.step step) plain.2, recorded_plain_step K plain.1, responses, lastOf_append, Option.or_assoc]

end

/-- What an attempt to respond comes to, and what it changes. -/
structure Attempt (cs : Contexts) (n : Nat) (value : Except String Json) (status : Status) : Prop where
  comes : ((JsonService.respond value status).run (cs.world n)).1 = .returned (responseTo value status)
  fails : (∃ e, responseTo value status = .error e) ↔ status.isBodiless = false ∧ ∃ reason, value = .error reason
  succeeds : ∀ res, responseTo value status = .ok res → res.status = status
  /-- The status is recorded either way, and nothing else happens. -/
  records : (cs.step (.answer n value status)).state n = { cs.state n with status := some status }
  /-- So an attempt that fails leaves the status as it was only if it was that one. -/
  leaves : (∃ e, responseTo value status = .error e) →
    (((cs.step (.answer n value status)).state n).status = (cs.state n).status ↔ (cs.state n).status = some status)

theorem attempt {p : Past} {cs : Contexts} (K : Kin p cs) {n : Nat} (h : n < cs.members.length)
    (value : Except String Json) (status : Status) : Attempt cs n value status := by
  have records : (cs.step (.answer n value status)).state n = { cs.state n with status := some status } := by
    rw [K.state_step _ h, effects, if_pos rfl]
    rfl
  refine ⟨?_, responseTo_fails value status, fun res => responseTo_status, records, fun _ => ?_⟩
  · rw [run_respond]
  · rw [records]
    exact eq_comm

/-- What the status in a context tells. Whoever responds records the status, also if the value turns out to have no
text. As long as every attempt to respond either succeeds or fails with the status that is there already, and every
handler comes to a response or records nothing itself, the status is the one of the last response of the family, and
there is none before the first. -/
theorem status_tells (steps : List Step) :
    (∀ n < (run {} steps).members.length, ∀ value status, Attempt (run {} steps) n value status) ∧
    (AllPlain {} steps → ∀ n, ((run {} steps).state n).status =
      lastOf ((told {} {} steps).2.origin n) (responses {} {} steps)) := by
  have K := kin_told kin_init steps
  rw [told_run] at K
  refine ⟨fun n h => attempt K h, fun plain n => ?_⟩
  rw [K.status_eq, recorded_plain kin_init plain]
  exact Option.or_none

/-- A response, and an attempt of the same status on a clone that fails. -/
def attempts : List Step := [.clone 0, .respond 0 (.nat 1) .created, .answer 1 (.error "no text") .created]

/-- The status is the one of the response. -/
theorem status_tells_attempts : AllPlain {} attempts ∧ responses {} {} attempts = [(0, .created)] ∧
    ((run {} attempts).state 1).status = some .created := by
  have plain : AllPlain {} attempts := ⟨trivial, .inl ⟨_, rfl⟩, .inr rfl, trivial⟩
  exact ⟨plain, rfl, (status_tells attempts).2 plain 1⟩

/-- In a context of which there is no status yet, a failed attempt leaves the one that it was to respond with. -/
theorem failed_respond_recorded :
    (∃ e, ((JsonService.respond (.error "no text") .created).run (({} : Contexts).world 0)).1 = .returned (.error e)) ∧
      (({} : Contexts).state 0).status = none ∧
      ((({} : Contexts).step (.answer 0 (.error "no text") .created)).state 0).status = some .created :=
  ⟨⟨_, rfl⟩, rfl, rfl⟩

end Contexts

end JsonService
