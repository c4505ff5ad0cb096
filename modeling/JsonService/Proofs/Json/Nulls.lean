import JsonService.Proofs.Json.Meaning

/-!
# Values without null members

Paths of keys and indices tell what of a value is left when the null members of its objects go: what a path
leads to without passing a null member, and nothing else.

**Results.**
* `leads_stripNulls`: where a path leads in what is left.
* `Present.ne_null_of_mem`: no member of an object in what is left is null.
* `stripNulls_stripNulls`, `stripNulls_eq_self`: removing null members again, and from a value without any.
* `stripNulls_exact`.
-/
namespace JsonService.Json

/-- One step into a value: to a member of an object, or to an item of a list. -/
inductive Step where
  | key (k : String)
  | index (i : Nat)

/-- A path leads from a value to a value in it, and the members of objects on the path all pass. -/
inductive Leads (passes : Json → Prop) : Json → List Step → Json → Prop
  | here : Leads passes v [] v
  | member : (k, v) ∈ ms → passes v → Leads passes v path w → Leads passes (.object ms) (.key k :: path) w
  | item : vs[i]? = some v → Leads passes v path w → Leads passes (.list vs) (.index i :: path) w

/-- A path leads from a value to a value in it. -/
abbrev LeadsTo : Json → List Step → Json → Prop := Leads fun _ => True

/-- A path leads from a value to a value in it, and no member of an object on the path is null. -/
abbrev LeadsPresent : Json → List Step → Json → Prop := Leads (· ≠ .null)

/-- No object in the value has a null member. -/
def NullFree (v : Json) : Prop := ∀ path ms, LeadsTo v path (.object ms) → ∀ m ∈ ms, m.2 ≠ .null

/-- A value that is neither a list nor an object. -/
def Scalar : Json → Prop
  | .list _ | .object _ => False
  | _ => True

/-! ## One level -/

theorem stripNulls_list (vs : List Json) : stripNulls (.list vs) = .list (vs.map stripNulls) := by
  rw [stripNulls, stripItems_eq]

theorem stripNulls_object (ms : List (String × Json)) :
    stripNulls (.object ms) = .object ((ms.map fun m => (m.1, m.2.stripNulls)).filter fun m => !m.2.isNull) := by
  rw [stripNulls, stripMembers_eq]

theorem Scalar.stripNulls {v : Json} (h : v.Scalar) : v.stripNulls = v := by
  cases v <;> first | rfl | exact h.elim

theorem isNull_eq_false {v : Json} : v.isNull = false ↔ v ≠ .null := by cases v <;> simp [isNull]

theorem stripNulls_eq_null {v : Json} : v.stripNulls = .null ↔ v = .null := by cases v <;> simp [stripNulls]

theorem stripNulls_eq_list {v : Json} {ws : List Json} :
    v.stripNulls = .list ws ↔ ∃ vs, v = .list vs ∧ ws = vs.map stripNulls := by
  cases v <;> simp [stripNulls, stripItems_eq, eq_comm]

theorem stripNulls_eq_object {v : Json} {ns : List (String × Json)} :
    v.stripNulls = .object ns ↔ ∃ ms, v = .object ms ∧ ns = stripMembers ms := by
  cases v <;> simp [stripNulls, eq_comm]

/-- What is left of a scalar or is a scalar is the scalar itself. -/
theorem stripNulls_eq_scalar {v s : Json} (h : s.Scalar) : v.stripNulls = s ↔ v = s := by
  cases v <;> cases s <;> simp_all [stripNulls, Scalar]

theorem mem_stripMembers {k : String} {w : Json} {ms : List (String × Json)} :
    (k, w) ∈ stripMembers ms ↔ ∃ v, (k, v) ∈ ms ∧ v ≠ .null ∧ w = v.stripNulls := by
  simp only [stripMembers_eq, List.mem_filter, List.mem_map, Prod.mk.injEq, Bool.not_eq_true', isNull_eq_false]
  constructor
  · rintro ⟨⟨⟨k', v⟩, mem, rfl, rfl⟩, present⟩
    exact ⟨v, mem, mt stripNulls_eq_null.mpr present, rfl⟩
  · rintro ⟨v, mem, present, rfl⟩
    exact ⟨⟨(k, v), mem, rfl, rfl⟩, mt stripNulls_eq_null.mp present⟩

/-- The keys that are left are those of the members that are not null, in their order. -/
theorem keys_stripMembers (ms : List (String × Json)) :
    (stripMembers ms).map (·.1) = (ms.filter fun m => !m.2.isNull).map (·.1) := by
  induction ms with
  | nil => rfl
  | cons m ms ih => cases h : m.2.isNull <;> simp [stripMembers, h, ih]

/-! ## Paths -/

/-- A path leads to a value in what is left if and only if it leads there past no null member. -/
theorem leads_stripNulls {v w : Json} {path : List Step} :
    LeadsTo v.stripNulls path w ↔ ∃ u, LeadsPresent v path u ∧ w = u.stripNulls := by
  constructor
  · intro h
    generalize left : v.stripNulls = v' at h
    induction h generalizing v with
    | here => exact ⟨v, .here, left.symm⟩
    | member mem _ _ ih =>
      obtain ⟨ms, rfl, rfl⟩ := stripNulls_eq_object.mp left
      obtain ⟨x, mem, present, same⟩ := mem_stripMembers.mp mem
      obtain ⟨u, leads, rfl⟩ := ih same.symm
      exact ⟨u, .member mem present leads, rfl⟩
    | item at_i _ ih =>
      obtain ⟨vs, rfl, rfl⟩ := stripNulls_eq_list.mp left
      rw [List.getElem?_map, Option.map_eq_some_iff] at at_i
      obtain ⟨x, at_i, same⟩ := at_i
      obtain ⟨u, leads, rfl⟩ := ih same
      exact ⟨u, .item at_i leads, rfl⟩
  · rintro ⟨u, h, rfl⟩
    induction h with
    | here => exact .here
    | member mem present _ ih => exact .member (mem_stripMembers.mpr ⟨_, mem, present, rfl⟩) trivial ih
    | item at_i _ ih =>
      rw [stripNulls_list]
      exact .item (by rw [List.getElem?_map, at_i, Option.map_some]) ih

theorem nullFree_stripNulls (v : Json) : NullFree v.stripNulls := by
  intro path ns leads m mem
  obtain ⟨u, -, same⟩ := leads_stripNulls.mp leads
  obtain ⟨ms, rfl, rfl⟩ := stripNulls_eq_object.mp same.symm
  obtain ⟨x, -, present, same⟩ := mem_stripMembers.mp mem
  rw [same]
  exact mt stripNulls_eq_null.mp present

theorem NullFree.item {vs : List Json} {v : Json} (h : NullFree (.list vs)) (mem : v ∈ vs) : NullFree v := by
  obtain ⟨i, at_i⟩ := List.mem_iff_getElem?.mp mem
  exact fun path ms leads => h (.index i :: path) ms (.item at_i leads)

theorem NullFree.member {ms : List (String × Json)} {m : String × Json} (h : NullFree (.object ms)) (mem : m ∈ ms) :
    NullFree m.2 :=
  fun path ns leads => h (.key m.1 :: path) ns (.member mem trivial leads)

/-- A value without null members is left as it is. -/
theorem NullFree.stripNulls {v : Json} (h : NullFree v) : v.stripNulls = v := by
  induction v using induct with
  | list vs ih =>
    have items : vs.map Json.stripNulls = vs :=
      (List.map_congr_left fun v mem => ih v mem (h.item mem)).trans vs.map_id
    rw [stripNulls_list, items]
  | object ms ih =>
    have same : ms.map (fun m => (m.1, m.2.stripNulls)) = ms :=
      (List.map_congr_left fun m mem => by rw [ih m mem (h.member mem), id]).trans ms.map_id
    have present : ∀ m ∈ ms, (!m.2.isNull) = true := by
      intro m mem
      simpa [isNull_eq_false] using h [] ms .here m mem
    rw [stripNulls_object, same, List.filter_eq_self.mpr present]
  | _ => rfl

theorem stripNulls_stripNulls (v : Json) : v.stripNulls.stripNulls = v.stripNulls :=
  (nullFree_stripNulls v).stripNulls

theorem stripNulls_eq_self {v : Json} : v.stripNulls = v ↔ NullFree v :=
  ⟨fun same => same ▸ nullFree_stripNulls v, NullFree.stripNulls⟩

/-- When the null members of a value go, nothing else does. No object in what is left has a null member. A path
leads to a value in what is left if and only if it leads there in the whole value past no null member: to the same
scalar; to a list as long as it was, with its nulls where they were; to an object with the members that were not
null, in their order, and to the empty object if all were. A null that is no member stays. A second time removes
nothing more, and the first does so exactly if there is no null member. -/
theorem stripNulls_exact (v : Json) :
    NullFree v.stripNulls ∧
    (∀ path w, LeadsTo v.stripNulls path w ↔ ∃ u, LeadsPresent v path u ∧ w = u.stripNulls) ∧
    (∀ path s, s.Scalar → (LeadsTo v.stripNulls path s ↔ LeadsPresent v path s)) ∧
    (∀ path vs, LeadsPresent v path (.list vs) → ∃ ws, LeadsTo v.stripNulls path (.list ws) ∧
      ws.length = vs.length ∧ ∀ i : Nat, ws[i]? = some .null ↔ vs[i]? = some .null) ∧
    (∀ path ms, LeadsPresent v path (.object ms) → ∃ ns, LeadsTo v.stripNulls path (.object ns) ∧
      ns.map (·.1) = (ms.filter fun m => !m.2.isNull).map (·.1) ∧ (ns = [] ↔ ∀ m ∈ ms, m.2 = .null)) ∧
    (v.stripNulls = .null ↔ v = .null) ∧
    v.stripNulls.stripNulls = v.stripNulls ∧
    (v.stripNulls = v ↔ NullFree v) := by
  refine ⟨nullFree_stripNulls v, fun path w => leads_stripNulls, fun path s scalar => ?_, fun path vs leads => ?_,
    fun path ms leads => ?_, stripNulls_eq_null, stripNulls_stripNulls v, stripNulls_eq_self⟩
  · rw [leads_stripNulls]
    constructor
    · rintro ⟨u, leads, same⟩
      rwa [← (stripNulls_eq_scalar scalar).mp same.symm]
    · exact fun leads => ⟨s, leads, scalar.stripNulls.symm⟩
  · refine ⟨vs.map stripNulls, leads_stripNulls.mpr ⟨_, leads, (stripNulls_list vs).symm⟩, List.length_map _,
      fun i => ?_⟩
    rw [List.getElem?_map, Option.map_eq_some_iff]
    simp only [stripNulls_eq_null, exists_eq_right]
  · refine ⟨stripMembers ms, leads_stripNulls.mpr ⟨_, leads, rfl⟩, keys_stripMembers ms, ?_⟩
    rw [← List.map_eq_nil_iff (f := (·.1)), keys_stripMembers, List.map_eq_nil_iff, List.filter_eq_nil_iff]
    simp [isNull_eq_false]

end JsonService.Json
