import JsonService.Check
import JsonService.Decode
import Mathlib.Data.List.Induction
import Mathlib.Data.List.Nodup

/-!
# Validation

A chain of rules on the fields of a payload, of any length, its fields in any order, reports the first
failure of each field and nothing else. A body is decoded, refused with what such a chain reports, or
refused as no payload of its type.

**Results.**
* `check_eq`: a chain reports the rules that fail, without those whose field fails earlier.
* `mem_fields_check`, `fields_check_nodup`, `fields_check`: which fields it reports, each once, and in which order.
* `of_mem_check`: an error is that of the first rule of its field that fails.
* `Payload.decode_check`: the three outcomes of decoding.
-/
namespace JsonService

/-- A rule fails, and none before it on the same field does. -/
def Rule.FirstToFail (before : List Rule) (r : Rule) : Prop :=
  r.holds = false ∧ ∀ q ∈ before, q.field = r.field → q.holds = true

instance (before : List Rule) (r : Rule) : Decidable (r.FirstToFail before) :=
  inferInstanceAs (Decidable (_ ∧ _))

/-- The rules of a chain that fail, in its order, without those whose field fails earlier in the chain. -/
def firstFailures (rules : List Rule) : List Rule :=
  (rules.zipIdx.filter fun p => p.1.FirstToFail (rules.take p.2)).map (·.1)

/-- A chain with one more rule at its end has at most one more first failure. -/
theorem firstFailures_concat (rules : List Rule) (r : Rule) :
    firstFailures (rules ++ [r]) = firstFailures rules ++ if r.FirstToFail rules then [r] else [] := by
  have earlier : ∀ p ∈ rules.zipIdx, (rules ++ [r]).take p.2 = rules.take p.2 := by
    intro p hp
    have inside : p.2 < rules.length := by simpa using (List.mem_zipIdx hp).2.1
    exact List.take_append_of_le_length (Nat.le_of_lt inside)
  have same : (rules.zipIdx.filter fun p => p.1.FirstToFail ((rules ++ [r]).take p.2)) =
      rules.zipIdx.filter fun p => p.1.FirstToFail (rules.take p.2) :=
    List.filter_congr fun p hp => by rw [earlier p hp]
  rw [firstFailures, List.zipIdx_append, List.filter_append, same, List.map_append, ← firstFailures]
  congr 1
  by_cases first : r.FirstToFail rules <;> simp [first]

/-! ## The report of a chain -/

theorem check_concat (rules : List Rule) (r : Rule) : check (rules ++ [r]) = Rule.report (check rules) r := by
  rw [check, List.foldl_append]
  rfl

/-- A field is reported if and only if one of its rules fails. -/
theorem mem_fields_check (rules : List Rule) (f : String) :
    f ∈ (check rules).map (·.field) ↔ ∃ r ∈ rules, r.field = f ∧ r.holds = false := by
  induction rules using List.reverseRecOn with
  | nil => simp [check]
  | append_singleton rules r ih =>
    simp only [check_concat, List.mem_append, List.mem_singleton, or_and_right, exists_or, exists_eq_left, ← ih]
    rw [Rule.report]
    split
    · next skipped =>
      -- a rule that is passed over holds, or its field is there already
      constructor
      · exact .inl
      · rintro (old | ⟨rfl, fails⟩)
        · exact old
        · have known := skipped.resolve_left (by simp [fails])
          simpa using known
    · next added =>
      simp only [not_or, Bool.not_eq_true] at added
      simp [Rule.toFieldError, added.1, eq_comm]

/-- Whether a field has failed can be asked of the report: the accumulator need not remember the rules. -/
theorem firstToFail_iff (rules : List Rule) (r : Rule) :
    r.FirstToFail rules ↔ r.holds = false ∧ r.field ∉ (check rules).map (·.field) := by
  rw [mem_fields_check]
  simp [Rule.FirstToFail]

theorem report_check (rules : List Rule) (r : Rule) :
    Rule.report (check rules) r = check rules ++ if r.FirstToFail rules then [r.toFieldError] else [] := by
  have skipped : (r.holds ∨ (check rules).any (·.field = r.field)) ↔ ¬r.FirstToFail rules := by
    rw [firstToFail_iff]
    cases r.holds <;> simp
  rw [Rule.report]
  by_cases first : r.FirstToFail rules
  · rw [if_neg (by rw [skipped]; exact not_not_intro first), if_pos first]
  · rw [if_pos (skipped.mpr first), if_neg first, List.append_nil]

/-- A chain reports the rules that fail, in its order, without those whose field fails earlier. -/
theorem check_eq (rules : List Rule) : check rules = (firstFailures rules).map Rule.toFieldError := by
  induction rules using List.reverseRecOn with
  | nil => rfl
  | append_singleton rules r ih =>
    rw [check_concat, report_check, firstFailures_concat, List.map_append, ih]
    split <;> rfl

/-- No field is reported twice. -/
theorem fields_check_nodup (rules : List Rule) : ((check rules).map (·.field)).Nodup := by
  induction rules using List.reverseRecOn with
  | nil => exact .nil
  | append_singleton rules r ih =>
    rw [check_concat, report_check, List.map_append]
    split
    · next first =>
      have fresh := ((firstToFail_iff rules r).mp first).2
      refine List.nodup_append.mpr ⟨ih, List.nodup_singleton _, fun f old g new same => fresh ?_⟩
      rwa [same, List.mem_singleton.mp new] at old
    · rwa [List.map_nil, List.append_nil]

/-- The fields stand in the order of their first failures. -/
theorem fields_check (rules : List Rule) :
    (check rules).map (·.field) = ((rules.filter fun r => !r.holds).map (·.field)).eraseDups := by
  induction rules using List.reverseRecOn with
  | nil => rfl
  | append_singleton rules r ih =>
    rw [check_concat, report_check, List.map_append, ih, List.filter_append, List.map_append, List.eraseDups_append]
    have known : r.field ∈ (check rules).map (·.field) ↔ r.field ∈ (rules.filter fun r => !r.holds).map (·.field) := by
      rw [ih, List.mem_eraseDups]
    congr 1
    simp only [firstToFail_iff, known]
    by_cases holds : r.holds = true
    · simp [holds, List.removeAll]
    · by_cases mem : r.field ∈ (rules.filter fun r => !r.holds).map (·.field) <;>
        simp [holds, mem, List.removeAll, Rule.toFieldError, List.eraseDups_cons]

/-- An error is that of a rule that fails, the first of its field to do so. -/
theorem of_mem_check {rules : List Rule} {e : FieldError} (h : e ∈ check rules) :
    ∃ before r after, rules = before ++ r :: after ∧ r.FirstToFail before ∧ e = r.toFieldError := by
  induction rules using List.reverseRecOn with
  | nil => cases h
  | append_singleton rules r ih =>
    rw [check_concat, report_check, List.mem_append] at h
    rcases h with old | new
    · obtain ⟨before, q, after, rfl, first, rfl⟩ := ih old
      exact ⟨before, q, after ++ [r], by simp, first, rfl⟩
    · split at new
      · next first => exact ⟨rules, r, [], rfl, first, List.mem_singleton.mp new⟩
      · cases new

theorem check_eq_nil {rules : List Rule} : check rules = [] ↔ ∀ r ∈ rules, r.holds = true := by
  have fields : (check rules).map (·.field) = [] ↔ ∀ r ∈ rules, r.holds = true := by
    simp only [List.eq_nil_iff_forall_not_mem, mem_fields_check]
    grind
  rw [← fields, List.map_eq_nil_iff]

/-! ## Decoding -/

/-- A body is JSON, and its value without null members has a shape, with this content. -/
def Json.Shape.Reads (shape : Json.Shape α) (body : List UInt8) (a : α) : Prop :=
  ∃ v, Json.parse body = .ok v ∧ shape v.stripNulls = .ok a

/-- A body is no JSON, or its value misses a shape, for this reason. -/
def Json.Shape.Misses (shape : Json.Shape α) (body : List UInt8) (reason : String) : Prop :=
  Json.parse body = .error reason ∨
    ∃ v m, Json.parse body = .ok v ∧ shape v.stripNulls = .error m ∧ m.message = reason

section
variable {α : Type} {p : Payload α} {body : List UInt8}

theorem Json.Shape.reads_or_misses (shape : Json.Shape α) (body : List UInt8) :
    (∃ a, shape.Reads body a) ∨ ∃ reason, shape.Misses body reason := by
  cases parsed : Json.parse body with
  | error reason => exact .inr ⟨reason, .inl parsed⟩
  | ok v =>
    cases shaped : shape v.stripNulls with
    | error m => exact .inr ⟨m.message, .inr ⟨v, m, parsed, shaped, rfl⟩⟩
    | ok a => exact .inl ⟨a, v, parsed, shaped⟩

theorem Payload.decode_misses {reason : String} (h : p.shape.Misses body reason) :
    p.decode body = .error (undecodable reason) := by
  rcases h with parsed | ⟨v, m, parsed, shaped, rfl⟩
  · simp only [Payload.decode, parsed]
  · simp only [Payload.decode, parsed, shaped]

theorem Payload.decode_reads {a : α} (h : p.shape.Reads body a) :
    p.decode body = if p.validate a = [] then .ok a else .error (.validation (p.validate a)) := by
  obtain ⟨v, parsed, shaped⟩ := h
  simp only [Payload.decode, parsed, shaped]
  cases p.validate a <;> rfl

/-- Decoding comes to one of three outcomes. -/
theorem Payload.decode_cases (p : Payload α) (body : List UInt8) :
    (∃ a, p.shape.Reads body a ∧ p.validate a = [] ∧ p.decode body = .ok a) ∨
      (∃ a, p.shape.Reads body a ∧ p.validate a ≠ [] ∧ p.decode body = .error (.validation (p.validate a))) ∨
      ∃ reason, p.shape.Misses body reason ∧ p.decode body = .error (undecodable reason) := by
  rcases p.shape.reads_or_misses body with ⟨a, reads⟩ | ⟨reason, misses⟩
  · by_cases valid : p.validate a = []
    · exact .inl ⟨a, reads, valid, by rw [decode_reads reads, if_pos valid]⟩
    · exact .inr (.inl ⟨a, reads, valid, by rw [decode_reads reads, if_neg valid]⟩)
  · exact .inr (.inr ⟨reason, misses, decode_misses misses⟩)

theorem Payload.decode_eq_ok {a : α} : p.decode body = .ok a ↔ p.shape.Reads body a ∧ p.validate a = [] := by
  constructor
  · intro h
    obtain ⟨b, reads, valid, outcome⟩ | ⟨b, -, -, outcome⟩ | ⟨reason, -, outcome⟩ := p.decode_cases body
    all_goals cases h.symm.trans outcome
    exact ⟨reads, valid⟩
  · rintro ⟨reads, valid⟩
    rw [decode_reads reads, if_pos valid]

theorem Payload.decode_eq_validation {fields : FieldErrors} :
    p.decode body = .error (.validation fields) ↔
      ∃ a, p.shape.Reads body a ∧ fields = p.validate a ∧ fields ≠ [] := by
  constructor
  · intro h
    obtain ⟨b, -, -, outcome⟩ | ⟨b, reads, invalid, outcome⟩ | ⟨reason, -, outcome⟩ := p.decode_cases body
    all_goals cases h.symm.trans outcome
    exact ⟨b, reads, rfl, invalid⟩
  · rintro ⟨a, reads, rfl, invalid⟩
    rw [decode_reads reads, if_neg invalid]

theorem Payload.decode_eq_request {status : Status} {message : String} :
    p.decode body = .error (.request status message) ↔
      ∃ reason, p.shape.Misses body reason ∧ undecodable reason = .request status message := by
  constructor
  · intro h
    obtain ⟨b, -, -, outcome⟩ | ⟨b, -, -, outcome⟩ | ⟨reason, misses, outcome⟩ := p.decode_cases body
    all_goals have same := h.symm.trans outcome
    · cases same
    · cases same
    · exact ⟨reason, misses, (Except.error.inj same).symm⟩
  · rintro ⟨reason, misses, same⟩
    rw [decode_misses misses, same]

end

/-- A chain reports the rules that fail, in its order, without those whose field fails earlier: the fields are
distinct, each field with a failing rule is there, with the message of the first, and they stand in the order of
their first failures. A body whose content is validated by such a chain, which may depend on the content, is
refused with exactly that report if it has the right shape and a rule fails, decoded if no rule fails, and
refused as undecodable, with 400, if it is no JSON or misses the shape; one of the three is always so. -/
theorem Payload.decode_check {α : Type} (shape : Json.Shape α) (rules : α → List Rule) :
    (∀ chain : List Rule,
      check chain = (firstFailures chain).map Rule.toFieldError ∧
      ((check chain).map (·.field)).Nodup ∧
      (∀ f, f ∈ (check chain).map (·.field) ↔ ∃ r ∈ chain, r.field = f ∧ r.holds = false) ∧
      (∀ e ∈ check chain, ∃ before r after,
        chain = before ++ r :: after ∧ r.FirstToFail before ∧ e = ⟨r.field, r.message⟩) ∧
      (check chain).map (·.field) = ((chain.filter fun r => !r.holds).map (·.field)).eraseDups) ∧
    ∀ body : List UInt8,
      let decoded := ({ shape, validate := fun a => check (rules a) } : Payload α).decode body
      (∀ fields, decoded = .error (.validation fields) ↔
        ∃ a, shape.Reads body a ∧ (∃ r ∈ rules a, r.holds = false) ∧ fields = check (rules a) ∧ fields ≠ []) ∧
      (∀ a, decoded = .ok a ↔ shape.Reads body a ∧ ∀ r ∈ rules a, r.holds = true) ∧
      (∀ status message, decoded = .error (.request status message) ↔
        status = .badRequest ∧ ∃ reason, shape.Misses body reason ∧
          message = s!"unable to decode payload: {reason}") ∧
      ((∃ fields, decoded = .error (.validation fields)) ∨ (∃ a, decoded = .ok a) ∨
        ∃ message, decoded = .error (.request .badRequest message)) := by
  refine ⟨fun chain => ⟨check_eq chain, fields_check_nodup chain, mem_fields_check chain,
    fun e he => of_mem_check he, fields_check chain⟩, fun body => ?_⟩
  refine ⟨fun fields => ?_, fun a => ?_, fun status message => ?_, ?_⟩
  · rw [decode_eq_validation]
    refine exists_congr fun a => and_congr_right fun _ => ⟨?_, fun h => h.2⟩
    rintro ⟨rfl, some⟩
    exact ⟨by simpa [check_eq_nil] using some, rfl, some⟩
  · rw [decode_eq_ok, check_eq_nil]
  · rw [decode_eq_request]
    constructor
    · rintro ⟨reason, misses, ⟨⟩⟩
      exact ⟨rfl, reason, misses, rfl⟩
    · rintro ⟨rfl, reason, misses, rfl⟩
      exact ⟨reason, misses, rfl⟩
  · obtain ⟨a, -, -, outcome⟩ | ⟨a, -, -, outcome⟩ | ⟨reason, -, outcome⟩ := Payload.decode_cases
      { shape, validate := fun a => check (rules a) } body
    · exact .inr (.inl ⟨a, outcome⟩)
    · exact .inl ⟨_, outcome⟩
    · exact .inr (.inr ⟨_, outcome⟩)

end JsonService
