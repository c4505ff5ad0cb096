import JsonService.Page
import Mathlib.Algebra.Group.Nat.Defs

/-!
# Pages of a listing

The pages of one size divide a listing into stretches of that size, from its start on. Numbers and sizes of pages are
below the limit, so no page is so far out that its offset would be cut.

**Results.**
* `offset_eq`, `offset_lt`: where a page begins.
* `getElem?_of`: what stands on a page, place by place.
* `of_eq_nil_iff`: a page is empty just if it begins behind the end, or has no places.
* `flatMap_of`: the first pages, one after another, are the start of the listing.
* `of_append`: what is added to a listing changes no page that was full.
* `parts`: so the pages part every listing.
-/
namespace JsonService.Page

variable {α : Type u} {k s : Nat}

theorem offset_lt (hk : k < 2 ^ 32) (hs : s < 2 ^ 32) : (k - 1) * s < 2 ^ 64 := by
  have bound : (k - 1) * s ≤ (2 ^ 32 - 1) * (2 ^ 32 - 1) := Nat.mul_le_mul (by omega) (by omega)
  exact Nat.lt_of_le_of_lt bound (by decide)

/-- Where a page begins; no offset is cut. -/
theorem offset_eq (hk : k < 2 ^ 32) (hs : s < 2 ^ 32) : (⟨k, s⟩ : Page).offset = (k - 1) * s :=
  Nat.min_eq_left (Nat.le_of_lt_succ (offset_lt hk hs))

theorem of_eq (items : List α) (hk : k < 2 ^ 32) (hs : s < 2 ^ 32) :
    of items ⟨k, s⟩ = (items.drop ((k - 1) * s)).take s := by
  rw [of, offset_eq hk hs]

/-- The place `j` of a page holds the item that stands `j` places behind its start. -/
theorem getElem?_of (items : List α) (hk : k < 2 ^ 32) (hs : s < 2 ^ 32) (j : Nat) :
    (of items ⟨k, s⟩)[j]? = if j < s then items[(k - 1) * s + j]? else none := by
  rw [of_eq items hk hs, List.getElem?_take, List.getElem?_drop]

theorem of_eq_nil_iff (items : List α) (hk : k < 2 ^ 32) (hs : s < 2 ^ 32) :
    of items ⟨k, s⟩ = [] ↔ s = 0 ∨ items.length ≤ (k - 1) * s := by
  rw [of_eq items hk hs, List.take_eq_nil_iff, List.drop_eq_nil_iff]

theorem flatMap_of (items : List α) (hs : s < 2 ^ 32) {n : Nat} (hn : n < 2 ^ 32) :
    (List.range n).flatMap (fun k => of items ⟨k + 1, s⟩) = items.take (n * s) := by
  induction n with
  | zero => simp
  | succ n ih =>
    rw [List.range_succ, List.flatMap_append, ih (by omega), List.flatMap_singleton, of_eq items hn hs,
      Nat.add_sub_cancel, Nat.succ_mul, List.take_add]

theorem of_map {β : Type v} (f : α → β) (items : List α) (p : Page) : of (items.map f) p = (of items p).map f := by
  rw [of, of, List.map_take, List.map_drop]

/-- A page that is full stays as it is, whatever is added to the listing. -/
theorem of_append {items : List α} {p : Page} (full : (of items p).length = p.size) (more : List α) :
    of (items ++ more) p = of items p := by
  simp only [of, List.length_take, List.length_drop] at full ⊢
  by_cases h : p.offset ≤ items.length
  · rw [List.drop_append_of_le_length h, List.take_append_of_le_length]
    rw [List.length_drop]
    omega
  · have empty : p.size = 0 := by omega
    rw [empty, List.take_zero, List.take_zero]

/-- The item with an index stands on one page, at one place. -/
theorem place_iff (items : List α) (hs : s < 2 ^ 32) (positive : 0 < s) (first : 1 ≤ k) (hk : k < 2 ^ 32) (j i : Nat) :
    (∃ a, (of items.zipIdx ⟨k, s⟩)[j]? = some (a, i)) ↔ i < items.length ∧ k = i / s + 1 ∧ j = i % s := by
  have index : (∃ a, (of items.zipIdx ⟨k, s⟩)[j]? = some (a, i)) ↔
      i < items.length ∧ j + s * (k - 1) = i ∧ j < s := by
    rw [getElem?_of _ hk hs, List.getElem?_zipIdx, Nat.mul_comm, Nat.add_comm _ j]
    generalize j + s * (k - 1) = m
    split
    · next inside =>
      simp only [Option.map_eq_some_iff, Prod.mk.injEq, Nat.zero_add, inside, and_true]
      constructor
      · rintro ⟨a, b, h, rfl, rfl⟩
        exact ⟨(List.getElem?_eq_some_iff.mp h).1, rfl⟩
      · rintro ⟨h, rfl⟩
        exact ⟨_, _, List.getElem?_eq_getElem h, rfl, rfl⟩
    · next outside => simp [outside]
  rw [index, ← Nat.div_mod_unique positive]
  omega

/-- What the pages of one size are to a listing. -/
structure Parts (items : List α) (s : Nat) : Prop where
  /-- No offset is cut. -/
  offset : ∀ k < 2 ^ 32, (⟨k, s⟩ : Page).offset = (k - 1) * s ∧ (k - 1) * s < 2 ^ 64
  /-- The item with the index `i` stands on one page, at one place. -/
  place : 0 < s → ∀ k j, 1 ≤ k → k < 2 ^ 32 → ∀ i, (∃ a, (of items.zipIdx ⟨k, s⟩)[j]? = some (a, i)) ↔
    i < items.length ∧ k = i / s + 1 ∧ j = i % s
  /-- Indices are no part of a page. -/
  unnumbered : ∀ p, (of items.zipIdx p).map (·.1) = of items p
  joined : ∀ n < 2 ^ 32, (List.range n).flatMap (fun k => of items ⟨k + 1, s⟩) = items.take (n * s)
  /-- So enough pages are the listing. -/
  whole : ∀ n < 2 ^ 32, items.length ≤ n * s → (List.range n).flatMap (fun k => of items ⟨k + 1, s⟩) = items
  empty : ∀ k < 2 ^ 32, of items ⟨k, s⟩ = [] ↔ s = 0 ∨ items.length ≤ (k - 1) * s
  full : ∀ k more, (of items ⟨k, s⟩).length = s → of (items ++ more) ⟨k, s⟩ = of items ⟨k, s⟩

/-- The pages of every size part every listing. -/
theorem parts (items : List α) (hs : s < 2 ^ 32) : Parts items s where
  offset k hk := ⟨offset_eq hk hs, offset_lt hk hs⟩
  place positive k j first hk i := place_iff items hs positive first hk j i
  unnumbered p := by rw [← of_map, List.zipIdx_map_fst]
  joined n hn := flatMap_of items hs hn
  whole n hn enough := by rw [flatMap_of items hs hn, List.take_of_length_le enough]
  empty k hk := of_eq_nil_iff items hk hs
  full k more h := of_append h more

end JsonService.Page
