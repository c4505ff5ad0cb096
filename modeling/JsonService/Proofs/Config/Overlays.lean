import JsonService.Config.Environment
import JsonService.Proofs.Entries
import Mathlib.Data.List.Basic

/-!
# What stands under a path of a layered setting

Settings are laid over one another name by name, so what the result has under a path depends on what each has under that
path, as long as no text stands in the way of it (`Leads`).

**Results.**
* `get?_overlayEntries`, `at?_overlay`: the entries of one table over another, and what stands under a path.
* `Leads.overlay`: no text gets in the way.
* `at?_foldl`: of many settings over one another the last counts that has a text there.
* `Environment.at?_layeredOver`: so of the variables of an environment.
-/
namespace JsonService

namespace Entries

variable {α : Type}

/-- No name stands twice where names ascend. -/
theorem Ascending.get?_tail {key : String} {v : α} {es : Entries α} (h : Ascending ((key, v) :: es)) :
    get? key es = none := by
  refine get?_eq_none.mpr fun twice => ?_
  obtain ⟨e, he, same⟩ := List.mem_map.mp twice
  have less := (List.pairwise_cons.mp h).1 e he
  rw [same] at less
  exact absurd less (String.lt_irrefl _)

end Entries

namespace Config

namespace Setting

open Entries (Ascending get? get?_insert)

/-! ## One setting over another -/

/-- The setting under a path, if there is one. -/
def at? : List String → Setting → Option Setting
  | [], v => some v
  | name :: path, v => (get? name v.entries).bind (at? path)

/-- What stands where `v` is laid over what stood there. -/
def laid (base : Option Setting) (v : Setting) : Setting :=
  match base with
  | some base => overlay base v
  | none => v

/-- A text takes the place of what it is laid over. -/
theorem laid_text (base : Option Setting) (s : String) : laid base (.text s) = .text s := by
  cases base <;> rfl

/-- Every name of either table is one of the result, with the values of both laid over one another. -/
theorem get?_overlayEntries {es : List (String × Setting)} (h : Ascending es) (below : Entries Setting)
    (name : String) : get? name (overlayEntries below es) =
      match get? name es with
      | some v => some (laid (get? name below) v)
      | none => get? name below := by
  induction es generalizing below with
  | nil => rfl
  | cons e es ih =>
    obtain ⟨key, v⟩ := e
    have step : overlayEntries below ((key, v) :: es) =
        overlayEntries (Entries.insert key (laid (get? key below) v) below) es := rfl
    rw [step, ih (List.pairwise_cons.mp h).2, get?_insert]
    by_cases same : key = name
    · obtain rfl := same
      simp only [get?, h.get?_tail, if_true]
    · simp only [get?, if_neg same, if_neg (Ne.symm same)]

theorem ascending_overlayEntries (es : List (String × Setting)) {below : Entries Setting} (h : Ascending below) :
    Ascending (overlayEntries below es) := by
  induction es generalizing below with
  | nil => exact h
  | cons e es ih => exact ih (h.insert e.1 (laid (get? e.1 below) e.2))

theorem get?_overlay {es : List (String × Setting)} (h : Ascending es) (base : Setting) (name : String) :
    get? name (overlay base (.table es)).entries =
      match get? name es with
      | some v => some (laid (get? name base.entries) v)
      | none => get? name base.entries := by
  have bare : get? name es = match get? name es with
      | some v => some (laid none v)
      | none => none := by
    cases get? name es <;> rfl
  cases base with
  | table below => exact get?_overlayEntries h below name
  | _ => exact bare

/-! ## Paths -/

/-- A path leads through tables whose names ascend, as far as it leads. -/
inductive Leads : List String → Setting → Prop
  | here (v : Setting) : Leads [] v
  | step {name : String} {path : List String} {es : Entries Setting} (ascending : Ascending es)
    (inside : ∀ v, get? name es = some v → Leads path v) : Leads (name :: path) (.table es)

theorem leads_empty (path : List String) : Leads path (.table []) := by
  cases path with
  | nil => exact .here _
  | cons name path => exact .step List.Pairwise.nil fun _ h => nomatch h

/-- What stands under a path where one setting is laid over another. -/
theorem at?_overlay {path : List String} {v : Setting} (h : Leads path v) (base : Setting) :
    at? path (overlay base v) =
      match at? path v with
      | some w => some (laid (at? path base) w)
      | none => at? path base := by
  induction h generalizing base with
  | here v => rfl
  | @step name path es ascending inside ih =>
    rw [at?, get?_overlay ascending, at?, at?]
    show _ = match (get? name es).bind (at? path) with
      | some w => some (laid ((get? name base.entries).bind (at? path)) w)
      | none => (get? name base.entries).bind (at? path)
    cases found : get? name es with
    | none => rfl
    | some v =>
      cases get? name base.entries with
      | none =>
        show at? path v = match at? path v with
          | some w => some w
          | none => none
        cases at? path v <;> rfl
      | some b => exact ih v found b

/-- A path that leads through both settings leads through one laid over the other. -/
theorem Leads.overlay {path : List String} {base v : Setting} (hbase : Leads path base) (h : Leads path v) :
    Leads path (overlay base v) := by
  induction h generalizing base with
  | here v => exact .here _
  | @step name path es ascending inside ih =>
    cases hbase with
    | @step _ _ below ascendingBelow insideBelow =>
      refine .step (ascending_overlayEntries es ascendingBelow) fun w hw => ?_
      rw [get?_overlayEntries ascending] at hw
      cases found : get? name es with
      | none =>
        simp only [found] at hw
        exact insideBelow w hw
      | some v =>
        simp only [found, Option.some.injEq] at hw
        subst hw
        cases foundBelow : get? name below with
        | none => exact inside v found
        | some b => exact ih v found (insideBelow b foundBelow)

/-! ## A value under a path -/

theorem at?_nested (v : Setting) (path : List String) : at? path (nested v path) = some v := by
  induction path with
  | nil => rfl
  | cons name path ih => simpa [nested, at?, entries, get?] using ih

/-- Nothing stands under a path that parts from it. -/
theorem at?_nested_apart (v : Setting) {path other : List String} (apart : ¬path <+: other) (apart' : ¬other <+: path) :
    at? other (nested v path) = none := by
  induction path generalizing other with
  | nil => exact absurd List.nil_prefix apart
  | cons name path ih =>
    cases other with
    | nil => exact absurd List.nil_prefix apart'
    | cons name' other =>
      by_cases same : name = name'
      · subst same
        have rest := ih (fun along => apart (List.cons_prefix_cons.mpr ⟨rfl, along⟩))
          (fun along => apart' (List.cons_prefix_cons.mpr ⟨rfl, along⟩))
        simpa [nested, at?, entries, get?] using rest
      · simp [nested, at?, entries, get?, same]

/-- A value is in the way of those paths only that go on after it. -/
theorem leads_nested (v : Setting) {path other : List String} (h : path = other ∨ ¬path <+: other) :
    Leads other (nested v path) := by
  induction path generalizing other with
  | nil =>
    rcases h with rfl | apart
    · exact .here _
    · exact absurd List.nil_prefix apart
  | cons name path ih =>
    cases other with
    | nil => exact .here _
    | cons name' other =>
      refine .step (List.pairwise_singleton ..) fun w hw => ?_
      by_cases same : name = name'
      · subst same
        obtain rfl : nested v path = w := by simpa [get?] using hw
        exact ih (h.imp (fun same => (List.cons.inj same).2) fun apart along =>
          apart (List.cons_prefix_cons.mpr ⟨rfl, along⟩))
      · simp [get?, same] at hw

/-! ## Many settings over one another -/

/-- Of many settings over one another the last counts that has a text under a path. -/
theorem at?_foldl {path : List String} {vs : List Setting} (leads : ∀ v ∈ vs, Leads path v)
    (texts : ∀ v ∈ vs, ∀ w, at? path v = some w → ∃ s, w = .text s) (base : Setting) :
    at? path (vs.foldl overlay base) = (vs.filterMap (at? path)).getLast?.or (at? path base) := by
  induction vs generalizing base with
  | nil => rfl
  | cons v vs ih =>
    obtain ⟨leads_v, leads⟩ := List.forall_mem_cons.mp leads
    obtain ⟨texts_v, texts⟩ := List.forall_mem_cons.mp texts
    rw [List.foldl_cons, ih leads texts, at?_overlay leads_v]
    cases found : at? path v with
    | none => rw [List.filterMap_cons_none found]
    | some w =>
      obtain ⟨s, rfl⟩ := texts_v w found
      rw [List.filterMap_cons_some found, List.getLast?_cons]
      simp only [laid_text]
      cases (vs.filterMap (at? path)).getLast? <;> rfl

theorem leads_foldl {path : List String} {vs : List Setting} (leads : ∀ v ∈ vs, Leads path v) {base : Setting}
    (h : Leads path base) : Leads path (vs.foldl overlay base) := by
  induction vs generalizing base with
  | nil => exact h
  | cons v vs ih =>
    obtain ⟨leads_v, leads⟩ := List.forall_mem_cons.mp leads
    exact ih leads (h.overlay leads_v)

end Setting

/-! ## Environments -/

namespace Environment

open Setting (at? Leads)

/-- Every variable is for the setting under a path, which is a text then, or for one that parts from it. -/
structure Clear (env : Environment) (path : List String) : Prop where
  apart : ∀ e ∈ env, ∀ p, path? e.1 = some p → p = path ∨ ¬p <+: path ∧ ¬path <+: p
  texts : ∀ e ∈ env, path? e.1 = some path → ∃ s, Setting.parse e.2 = .text s

theorem Clear.at?_setting {env : Environment} {path : List String} (h : env.Clear path) {e : String × String}
    (he : e ∈ env) :
    (setting? e).bind (at? path) = if path? e.1 = some path then some (Setting.parse e.2) else none := by
  cases held : path? e.1 with
  | none => simp [setting?, held]
  | some p =>
    rcases h.apart e he p held with rfl | ⟨parts, parts'⟩
    · simp [setting?, held, Setting.at?_nested]
    · have other : p ≠ path := by rintro rfl; exact parts List.prefix_rfl
      simp [setting?, held, Setting.at?_nested_apart _ parts parts', other]

/-- The values that the variables for a path have, in their order. -/
def values (env : Environment) (path : List String) : List Setting :=
  (env.filter (path? ·.1 = some path)).map (Setting.parse ·.2)

theorem Clear.filterMap_settings {env : Environment} {path : List String} (h : env.Clear path) :
    (env.filterMap setting?).filterMap (at? path) = env.values path := by
  rw [List.filterMap_filterMap, List.filterMap_congr fun e he => h.at?_setting he, values, ← List.filterMap_eq_map',
    List.filterMap_filter]
  simp

theorem Clear.text_of_mem_values {env : Environment} {path : List String} (h : env.Clear path) {v : Setting}
    (hv : v ∈ env.values path) : ∃ s, v = .text s := by
  obtain ⟨e, he, rfl⟩ := List.mem_map.mp hv
  obtain ⟨mem, held⟩ := List.mem_filter.mp he
  exact h.texts e mem (of_decide_eq_true held)

theorem Clear.leads {env : Environment} {path : List String} (h : env.Clear path) :
    ∀ v ∈ env.filterMap setting?, Leads path v := by
  intro v hv
  obtain ⟨e, he, held⟩ := List.mem_filterMap.mp hv
  obtain ⟨p, hp, rfl⟩ := Option.map_eq_some_iff.mp held
  exact Setting.leads_nested _ ((h.apart e he p hp).imp_right And.left)

/-- What stands under a path is what the last variable for it says, if there is one, and otherwise what the environment
was laid over. -/
theorem Clear.at?_layeredOver {path : List String} (ne : path ≠ []) {env : Environment} (h : env.Clear path)
    (base : Setting) : at? path (env.layeredOver base) = (env.values path).getLast?.or (at? path base) := by
  have texts : ∀ v ∈ env.filterMap setting?, ∀ w, at? path v = some w → ∃ s, w = .text s :=
    fun v hv w hw => h.text_of_mem_values (h.filterMap_settings ▸ List.mem_filterMap.mpr ⟨v, hv, hw⟩)
  have bare : at? path (.table []) = none := by
    obtain ⟨name, rest, rfl⟩ := List.exists_cons_of_ne_nil ne
    rfl
  rw [layeredOver, Setting.at?_overlay (Setting.leads_foldl h.leads (Setting.leads_empty path)),
    Setting.at?_foldl h.leads texts, h.filterMap_settings, bare, Option.or_none]
  cases last : (env.values path).getLast? with
  | none => rfl
  | some v =>
    obtain ⟨s, rfl⟩ := h.text_of_mem_values (List.mem_of_getLast? last)
    simp only [Setting.laid_text, Option.some_or]

end Environment

end Config

end JsonService
