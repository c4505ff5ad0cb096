import JsonService.Entries

/-!
# Entries gathered from a list

The entries that are set one after another, the last one of each name counting, and when two lists of
entries are the same.

**Results.**
* `get?_gather`: a name has the last value that the list gives it.
* `Ascending.ext`: entries with ascending names are the same if all names have the same values.
-/
namespace JsonService.Entries

variable {α β : Type}

/-- The entries `es` after all of `ms` have been set in turn. -/
def gatherInto (es ms : Entries α) : Entries α := ms.foldl (fun es m => insert m.1 m.2 es) es

/-- The entries set in turn. -/
def gather (ms : Entries α) : Entries α := gatherInto [] ms

theorem Ascending.gatherInto {es : Entries α} (h : Ascending es) (ms : Entries α) :
    Ascending (gatherInto es ms) := by
  induction ms generalizing es with
  | nil => exact h
  | cons m ms ih => exact ih (h.insert m.1 m.2)

theorem ascending_gather (ms : Entries α) : Ascending (gather ms) := Ascending.gatherInto .nil ms

/-! ## Values of names -/

theorem get?_append (k : String) (es es' : Entries α) : get? k (es ++ es') = (get? k es).or (get? k es') := by
  induction es with
  | nil => rfl
  | cons e es ih =>
    simp only [List.cons_append, get?]
    split
    · rfl
    · exact ih

theorem get?_eq_none {k : String} {es : Entries α} : get? k es = none ↔ k ∉ es.map (·.1) := by
  induction es with
  | nil => simp [get?]
  | cons e es ih =>
    simp only [get?, List.map_cons, List.mem_cons, not_or, ← ih]
    split
    · next h => simp [h]
    · next h => simp [Ne.symm h]

theorem get?_gatherInto (k : String) (es ms : Entries α) :
    get? k (gatherInto es ms) = (get? k ms.reverse).or (get? k es) := by
  induction ms generalizing es with
  | nil => rfl
  | cons m ms ih =>
    show get? k (gatherInto (insert m.1 m.2 es) ms) = _
    rw [ih, get?_insert, List.reverse_cons, get?_append, Option.or_assoc]
    congr 1
    simp only [get?, eq_comm (a := k)]
    split <;> rfl

/-- A name has the last value that the list gives it. -/
theorem get?_gather (k : String) (ms : Entries α) : get? k (gather ms) = get? k ms.reverse := by
  rw [gather, get?_gatherInto, get?, Option.or_none]

/-! ## Equality -/

theorem Ascending.mem_iff {es : Entries α} (h : Ascending es) {k : String} {v : α} :
    (k, v) ∈ es ↔ get? k es = some v := by
  induction es with
  | nil => simp [get?]
  | cons e es ih =>
    obtain ⟨hfirst, hrest⟩ := List.pairwise_cons.mp h
    simp only [get?, List.mem_cons, ih hrest]
    split
    · next heq =>
      have absent : get? k es = none := by
        rw [get?_eq_none]
        intro hmem
        obtain ⟨e', hmem, hk⟩ := List.mem_map.mp hmem
        exact String.lt_irrefl _ (heq.trans hk.symm ▸ hfirst e' hmem)
      simp [absent, Prod.ext_iff, heq, eq_comm]
    · next hne => simp [Prod.ext_iff, Ne.symm hne]

theorem Ascending.nodup {es : Entries α} (h : Ascending es) : es.Nodup := by
  refine List.Pairwise.imp ?_ h
  rintro a _ hlt rfl
  exact String.lt_irrefl a.1 hlt

/-- Entries with ascending names are known by the values of their names. -/
theorem Ascending.ext {es es' : Entries α} (h : Ascending es) (h' : Ascending es')
    (same : ∀ k, get? k es = get? k es') : es = es' := by
  have perm : es.Perm es' := (List.perm_ext_iff_of_nodup h.nodup h'.nodup).mpr fun (k, v) => by
    rw [h.mem_iff, h'.mem_iff, same k]
  exact perm.eq_of_pairwise (fun _ _ _ _ hlt hgt => absurd (String.lt_trans hlt hgt) (String.lt_irrefl _)) h h'

/-! ## Values changed and dropped -/

theorem insert_map (f : α → β) (k : String) (v : α) (es : Entries α) :
    (insert k v es).map (fun e => (e.1, f e.2)) = insert k (f v) (es.map fun e => (e.1, f e.2)) := by
  induction es with
  | nil => rfl
  | cons e es ih =>
    simp only [insert, List.map_cons]
    split
    · rfl
    split
    · rfl
    · rw [List.map_cons, ih]

theorem insert_insert (k : String) (v v' : α) (es : Entries α) : insert k v' (insert k v es) = insert k v' es := by
  induction es with
  | nil => simp [insert]
  | cons e es ih =>
    simp only [insert]
    split
    · simp [insert]
    split
    · simp [insert]
    · simp only [insert, ih]
      rw [if_neg ‹_›, if_neg ‹_›]

theorem get?_map (f : α → β) (k : String) (es : Entries α) :
    get? k (es.map fun e => (e.1, f e.2)) = (get? k es).map f := by
  induction es with
  | nil => rfl
  | cons e es ih =>
    simp only [List.map_cons, get?]
    split
    · rfl
    · exact ih

theorem Ascending.map {es : Entries α} (h : Ascending es) (f : α → β) :
    Ascending (es.map fun e => (e.1, f e.2)) :=
  List.pairwise_map.mpr h

theorem gather_map (f : α → β) (ms : Entries α) :
    (gather ms).map (fun e => (e.1, f e.2)) = gather (ms.map fun e => (e.1, f e.2)) := by
  have into : ∀ es : Entries α, (gatherInto es ms).map (fun e => (e.1, f e.2)) =
      gatherInto (es.map fun e => (e.1, f e.2)) (ms.map fun e => (e.1, f e.2)) := by
    induction ms with
    | nil => exact fun _ => rfl
    | cons m ms ih =>
      intro es
      show (gatherInto (insert m.1 m.2 es) ms).map _ = _
      rw [ih, insert_map]
      rfl
  exact into []

theorem Ascending.filter {es : Entries α} (h : Ascending es) (p : String × α → Bool) : Ascending (es.filter p) :=
  List.Pairwise.filter p h

theorem Ascending.get?_filter {es : Entries α} (h : Ascending es) (p : α → Bool) (k : String) :
    get? k (es.filter fun e => p e.2) = (get? k es).filter p := by
  ext v
  rw [← (h.filter _).mem_iff, List.mem_filter, h.mem_iff, Option.filter_eq_some_iff]

end JsonService.Entries
