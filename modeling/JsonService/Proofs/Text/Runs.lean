import JsonService.Text.Blank
import Mathlib.Data.List.TakeWhile

/-!
# Runs of characters

A reader takes the characters of one kind that come next: all of them and no more, where what follows does not go on
with one (`Stops`). What stands between others is told from them by properties that it has and they lack.

**Results.**
* `Stops.takeWhile_append`, `Stops.dropWhile_append`: what is taken, and what is left.
* `stripEnds_ends`, `stripEnds_self`: what is stripped from the ends of a text, and what is left of it.
* `forall_mem_intercalate`: what holds of parts with something between them.
* `ne_of_any`, `not_digit`, `not_blank`: what has a property is none of those that lack it.
-/
namespace JsonService.Text

/-! ## What is taken -/

/-- No character with the property comes next. -/
def Stops (p : Char → Bool) (cs : List Char) : Prop := ∀ c ∈ cs.head?, p c = false

section
variable {p : Char → Bool} {ds rest : List Char}

theorem stops_nil : Stops p [] := by simp [Stops]

theorem stops_cons {c : Char} : Stops p (c :: rest) ↔ p c = false := by simp [Stops]

theorem stops_of_forall {cs : List Char} (h : ∀ c ∈ cs, p c = false) : Stops p cs :=
  fun c hc => h c (List.mem_of_mem_head? hc)

theorem Stops.takeWhile (h : Stops p rest) : rest.takeWhile p = [] := by
  cases rest with
  | nil => rfl
  | cons c cs => rw [List.takeWhile_cons_of_neg (by rw [stops_cons.mp h]; decide)]

theorem Stops.dropWhile (h : Stops p rest) : rest.dropWhile p = rest := by
  cases rest with
  | nil => rfl
  | cons c cs => rw [List.dropWhile_cons_of_neg (by rw [stops_cons.mp h]; decide)]

theorem Stops.takeWhile_append (h : Stops p rest) (all : ∀ c ∈ ds, p c = true) : (ds ++ rest).takeWhile p = ds := by
  rw [List.takeWhile_append_of_pos all, h.takeWhile, List.append_nil]

theorem Stops.dropWhile_append (h : Stops p rest) (all : ∀ c ∈ ds, p c = true) : (ds ++ rest).dropWhile p = rest := by
  rw [List.dropWhile_append_of_pos all, h.dropWhile]

theorem drop_takeWhile (p : Char → Bool) (cs : List Char) : cs.drop (cs.takeWhile p).length = cs.dropWhile p := by
  have split := List.takeWhile_append_dropWhile (p := p) (l := cs)
  calc cs.drop (cs.takeWhile p).length
      = (cs.takeWhile p ++ cs.dropWhile p).drop (cs.takeWhile p).length := by rw [split]
    _ = cs.dropWhile p := List.drop_left

theorem Stops.append (h : Stops p ds) (ne : ds ≠ []) (rest : List Char) : Stops p (ds ++ rest) := by
  obtain ⟨c, cs, rfl⟩ := List.exists_cons_of_ne_nil ne
  exact stops_cons.mpr (stops_cons.mp h)

end

/-! ## Ends -/

/-- What is stripped from the ends of a text satisfies `p`, and what is left neither begins nor ends with such a
character. -/
theorem stripEnds_ends (p : Char → Bool) (cs : List Char) : ∃ before after,
    cs = before ++ stripEnds p cs ++ after ∧ (∀ c ∈ before, p c = true) ∧ (∀ c ∈ after, p c = true) ∧
      (∀ c ∈ (stripEnds p cs).head?, p c = false) ∧ ∀ c ∈ (stripEnds p cs).getLast?, p c = false := by
  have ends : cs.dropWhile p = stripEnds p cs ++ ((cs.dropWhile p).reverse.takeWhile p).reverse := by
    rw [stripEnds, ← List.reverse_append, List.takeWhile_append_dropWhile, List.reverse_reverse]
  refine ⟨cs.takeWhile p, ((cs.dropWhile p).reverse.takeWhile p).reverse, ?_, fun c hc => List.mem_takeWhile_imp hc,
    fun c hc => List.mem_takeWhile_imp (List.mem_reverse.mp hc), fun c hc => ?_, fun c hc => ?_⟩
  · rw [List.append_assoc, ← ends, List.takeWhile_append_dropWhile]
  · have first : (cs.dropWhile p).head? = some c := by
      rw [ends, List.head?_append, Option.mem_def.mp hc, Option.some_or]
    simpa [first] using List.head?_dropWhile_not p cs
  · rw [stripEnds, List.getLast?_reverse] at hc
    simpa [Option.mem_def.mp hc] using List.head?_dropWhile_not p (cs.dropWhile p).reverse

theorem stripEnds_self {p : Char → Bool} {cs : List Char} (first : Stops p cs) (last : Stops p cs.reverse) :
    stripEnds p cs = cs := by
  rw [stripEnds, first.dropWhile, last.dropWhile, List.reverse_reverse]

/-! ## Parts -/

/-- What holds of the parts and of what divides them holds of all that is between the ends. -/
theorem forall_mem_intercalate {P : Char → Prop} {sep : List Char} (hsep : ∀ c ∈ sep, P c) {parts : List (List Char)}
    (h : ∀ q ∈ parts, ∀ c ∈ q, P c) : ∀ c ∈ List.intercalate sep parts, P c := by
  intro c hc
  match parts with
  | [] => cases hc
  | [q] => exact h q List.mem_cons_self c (by rwa [List.intercalate_singleton] at hc)
  | q :: next :: parts =>
    obtain ⟨hq, rest⟩ := List.forall_mem_cons.mp h
    rw [List.intercalate_cons_cons] at hc
    rcases List.mem_append.mp hc with hc | hc
    · rcases List.mem_append.mp hc with hc | hc
      · exact hq c hc
      · exact hsep c hc
    · exact forall_mem_intercalate hsep rest c hc

/-! ## Classes of characters -/

section
variable {p : Char → Bool} {c : Char}

/-- What satisfies a property that some characters lack is none of them. -/
theorem ne_of_any {ds : List Char} (h : ds.any p = false) (hc : p c = true) : ∀ d ∈ ds, c ≠ d := by
  rintro d hd rfl
  exact List.any_eq_false.mp h c hd hc

theorem not_digit (h : (List.range' 48 10).any (fun n => p (Char.ofNat n)) = false) (hc : p c = true) :
    c.isDigit = false := by
  by_contra digit
  have bounds : 48 ≤ c.toNat ∧ c.toNat ≤ 57 := by
    simpa [Char.isDigit, UInt32.le_iff_toNat_le] using digit
  have other := List.any_eq_false.mp h c.toNat (List.mem_range'_1.mpr ⟨bounds.1, Nat.lt_succ_of_le bounds.2⟩)
  exact other (by rwa [Char.ofNat_toNat])

theorem not_blank (h : blanks.any (fun n => p (Char.ofNat n)) = false) (hc : p c = true) : isBlank c = false := by
  by_contra blank
  have other := List.any_eq_false.mp h c.toNat (by simpa [isBlank] using blank)
  exact other (by rwa [Char.ofNat_toNat])

end

theorem not_blank_of_isDigit {c : Char} (h : c.isDigit = true) : isBlank c = false := not_blank (by decide) h

end JsonService.Text
