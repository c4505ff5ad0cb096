import JsonService.Text.Blank

/-!
# Letters and other characters of ASCII

What holds of every character of ASCII is seen by looking at each, and only these have a case.

**Results.**
* `ascii_forall`.
* `toLower_cases`, `lower_lower`: only the letters `A` to `Z` are written small.
-/
namespace JsonService.Text

/-- What holds of the first 128 characters holds of every character below. -/
theorem ascii_forall {P : Char → Prop} (h : ∀ n ∈ List.range 128, P (Char.ofNat n)) {c : Char}
    (hc : c.toNat < 128) : P c := by
  have := h c.toNat (List.mem_range.mpr hc)
  rwa [Char.ofNat_toNat] at this

theorem toLower_cases (c : Char) : c.toLower = c ∨ ∃ n ∈ List.range' 65 26, c = Char.ofNat n := by
  by_cases letter : c.val ≥ 'A'.val ∧ c.val ≤ 'Z'.val
  · refine .inr ⟨c.toNat, List.mem_range'_1.mpr ?_, (Char.ofNat_toNat c).symm⟩
    simp only [ge_iff_le, UInt32.le_iff_toNat_le] at letter
    exact ⟨letter.1, Nat.lt_succ_of_le letter.2⟩
  · exact .inl (dif_neg letter)

theorem lower_lower (s : String) : lower (lower s) = lower s := by
  have letters : ∀ n ∈ List.range' 65 26, (Char.ofNat n).toLower.toLower = (Char.ofNat n).toLower := by
    decide +kernel
  have twice : Char.toLower ∘ Char.toLower = Char.toLower := by
    funext c
    show c.toLower.toLower = c.toLower
    rcases toLower_cases c with small | ⟨n, hn, rfl⟩
    · rw [small, small]
    · exact letters n hn
  rw [lower, lower, String.toList_ofList, List.map_map, twice]

end JsonService.Text
