import JsonService.Tokens

/-!
# Laws of cancellation tokens

What there is after a token more and after a cancellation. No token changes what it hangs on, so that a cancellation
reaches a token from the same places at all times.

**Results.**
* `isCancelled_create`, `isCancelled_child`: a token more changes nothing for the others.
* `isCancelled_cancel`: a cancellation cancels what hangs on the token, and nothing else.
* `not_hangs_of_lt`: no token hangs on a younger one.
-/
namespace JsonService.Tokens

variable (ts : Tokens) {t u p : Nat}

def Hangs (u t : Nat) : Prop := u < ts.count ∧ (u = t ∨ t ∈ ts.above u)

theorem hangs_self (h : t < ts.count) : ts.Hangs t t := ⟨h, Or.inl rfl⟩

theorem not_hangs_of_lt (h : u < t) : ¬ ts.Hangs u t := by
  rintro ⟨-, rfl | above⟩
  · exact Nat.lt_irrefl _ h
  · exact Nat.lt_asymm h (ts.above_lt above)

/-! ## A token more -/

theorem made_push (token : Token) (h : ∀ a ∈ token.above, a < ts.count) (t : Nat) :
    (ts.push token h).made[t]? = if t = ts.count then some token else ts.made[t]? := by
  have made : (ts.push token h).made = ts.made ++ [token] := rfl
  rw [made]
  rcases Nat.lt_trichotomy t ts.count with ht | rfl | ht
  · rw [List.getElem?_append_left ht, if_neg (Nat.ne_of_lt ht)]
  · rw [if_pos rfl]
    exact List.getElem?_concat_length
  · have old : ts.made.length ≤ t := Nat.le_of_lt ht
    have new : (ts.made ++ [token]).length ≤ t := by
      rw [List.length_append]
      exact Nat.succ_le_of_lt ht
    rw [if_neg (Nat.ne_of_gt ht), List.getElem?_eq_none new, List.getElem?_eq_none old]

theorem made_count : ts.made[ts.count]? = none := List.getElem?_eq_none (Nat.le_refl _)

theorem above_count : ts.above ts.count = [] := by
  rw [above, made_count]
  rfl

theorem isCancelled_count : ts.isCancelled ts.count = false := by
  rw [isCancelled, made_count]
  rfl

@[simp] theorem count_create : ts.create.count = ts.count + 1 := by simp [create, push, count]

@[simp] theorem count_child : (ts.child p).count = ts.count + 1 := by
  unfold child
  split <;> simp [create, push, count]

@[simp] theorem above_create : ts.create.above t = ts.above t := by
  rw [above, create, made_push]
  split
  · next new =>
    rw [new, above_count]
    rfl
  · rfl

@[simp] theorem isCancelled_create : ts.create.isCancelled t = ts.isCancelled t := by
  rw [isCancelled, create, made_push]
  split
  · next new =>
    rw [new, isCancelled_count]
    rfl
  · rfl

theorem above_child (h : p < ts.count) :
    (ts.child p).above t = if t = ts.count then p :: ts.above p else ts.above t := by
  rw [child, dif_pos h, above, made_push]
  split <;> rfl

theorem isCancelled_child (h : p < ts.count) :
    (ts.child p).isCancelled t = if t = ts.count then ts.isCancelled p else ts.isCancelled t := by
  rw [child, dif_pos h, isCancelled, made_push]
  split <;> rfl

/-- There may be tokens more, and the others are as they were. -/
structure More (ts ts' : Tokens) : Prop where
  count : ts.count ≤ ts'.count
  above : ∀ u < ts.count, ts'.above u = ts.above u
  isCancelled : ∀ u < ts.count, ts'.isCancelled u = ts.isCancelled u

theorem more_create : ts.More ts.create :=
  ⟨by simp, fun _ _ => ts.above_create, fun _ _ => ts.isCancelled_create⟩

theorem more_child (h : p < ts.count) : ts.More (ts.child p) := by
  refine ⟨by simp, fun u hu => ?_, fun u hu => ?_⟩
  · rw [ts.above_child h, if_neg (Nat.ne_of_lt hu)]
  · rw [ts.isCancelled_child h, if_neg (Nat.ne_of_lt hu)]

/-! ## A cancellation -/

@[simp] theorem count_cancel : (ts.cancel t).count = ts.count := by simp [cancel, count]

@[simp] theorem above_cancel : (ts.cancel t).above u = ts.above u := by
  simp only [above, cancel, List.getElem?_mapIdx]
  cases ts.made[u]? with
  | none => rfl
  | some token =>
    simp only [Option.map_some, Option.elim_some]
    split <;> rfl

/-- A cancellation cancels what hangs on the token, and nothing else. -/
theorem isCancelled_cancel : (ts.cancel t).isCancelled u = true ↔ ts.isCancelled u = true ∨ ts.Hangs u t := by
  simp only [isCancelled, cancel, List.getElem?_mapIdx, Hangs, above]
  cases hu : ts.made[u]? with
  | none =>
    have unmade : ¬ u < ts.count := Nat.not_lt.mpr (List.getElem?_eq_none_iff.mp hu)
    simp [unmade]
  | some token =>
    have made : u < ts.count := (List.getElem?_eq_some_iff.mp hu).1
    simp only [Option.map_some, Option.elim_some, made, true_and]
    split
    · next h => simp [h]
    · next h => simp [h]

theorem isCancelled_cancel_self (h : t < ts.count) : (ts.cancel t).isCancelled t = true :=
  (isCancelled_cancel ts).mpr (.inr (ts.hangs_self h))

theorem isCancelled_cancel_other (h : ¬ ts.Hangs u t) : (ts.cancel t).isCancelled u = ts.isCancelled u := by
  rw [Bool.eq_iff_iff, isCancelled_cancel]
  exact or_iff_left h

/-- Cancelling a child changes no other token. -/
theorem isCancelled_cancel_child (hp : p < ts.count) (hu : u < ts.count) :
    ((ts.child p).cancel ts.count).isCancelled u = ts.isCancelled u := by
  rw [isCancelled_cancel_other _ (not_hangs_of_lt _ hu), isCancelled_child _ hp, if_neg (Nat.ne_of_lt hu)]

end JsonService.Tokens
