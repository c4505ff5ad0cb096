import JsonService.Proofs.Text.Runs
import JsonService.Text.Digits

/-!
# Numbers read back from their digits

Numbers are written by their digits, in decimal or in hexadecimal.

**Results.** `decimalBelow?_toDigits` and `hexadecimal?_toDigits`: the digits of a number spell it.
-/
namespace JsonService.Text

/-! ## Decimal digits -/

theorem isDigit_toDigits (n : Nat) : ∀ c ∈ Nat.toDigits 10 n, c.isDigit = true :=
  fun _ hc => Nat.isDigit_of_mem_toDigits (by decide) (by decide) hc

theorem decimal_toDigits (n : Nat) : decimal (Nat.toDigits 10 n) = n := by
  have step : (fun (m : Nat) (d : Char) => m * 10 + (d.toNat - 48)) = fun m d => 10 * m + (d.toNat - '0'.toNat) := by
    funext m d
    rw [Nat.mul_comm]
    rfl
  rw [decimal, step, ← Nat.ofDigitChars_eq_foldl, Nat.ofDigitChars_ten_toDigits]

theorem decimal?_toDigits (n : Nat) : decimal? (Nat.toDigits 10 n) = some n := by
  have digits : (Nat.toDigits 10 n).all Char.isDigit = true := List.all_eq_true.mpr (isDigit_toDigits n)
  simp [decimal?, Nat.toDigits_ne_nil, digits, decimal_toDigits]

theorem decimalBelow?_toDigits {limit n : Nat} (h : n < limit) : decimalBelow? limit (Nat.toDigits 10 n) = some n := by
  simp [decimalBelow?, decimal?_toDigits, h]

/-- What has another character than digits in it is no number. -/
theorem decimalBelow?_eq_none {limit : Nat} {cs : List Char} {c : Char} (hc : c ∈ cs) (digit : c.isDigit = false) :
    decimalBelow? limit cs = none := by
  have other : cs.all Char.isDigit = false := List.all_eq_false.mpr ⟨c, hc, by simp [digit]⟩
  simp [decimalBelow?, decimal?, other]

theorem toDigits_head (n : Nat) : Nat.toDigits 10 n = ['0'] ∨ (Nat.toDigits 10 n).head? ≠ some '0' := by
  induction n using Nat.base_induction 10 (by decide) with
  | single m hm =>
    have all : ∀ m < 10, [m.digitChar] = ['0'] ∨ [m.digitChar].head? ≠ some '0' := by decide
    rw [Nat.toDigits_of_lt_base hm]
    exact all m hm
  | digit m k hk hm ih =>
    obtain ⟨c, cs, more⟩ := List.exists_cons_of_ne_nil (Nat.toDigits_ne_nil (n := m) (b := 10))
    rw [← Nat.toDigits_append_toDigits (by decide) hm hk]
    rcases ih with zero | other
    · have same := congrArg decimal zero
      rw [decimal_toDigits] at same
      exact absurd same (Nat.pos_iff_ne_zero.mp hm)
    · rw [more] at other ⊢
      exact .inr (by simpa using other)

/-! ## Hexadecimal digits -/

theorem hexDigit?_digitChar {d : Nat} (h : d < 16) : hexDigit? d.digitChar = some d := by
  have all : ∀ d < 16, hexDigit? d.digitChar = some d := by decide
  exact all d h

theorem isSome_hexDigit?_of_isDigit {c : Char} (h : c.isDigit = true) : (hexDigit? c).isSome = true := by
  have bounds : '0' ≤ c ∧ c ≤ '9' := by
    rwa [Char.isDigit, Bool.and_eq_true, decide_eq_true_iff, decide_eq_true_iff] at h
  rw [hexDigit?, if_pos bounds]
  rfl

/-- The digits of a number spell it. -/
theorem hexadecimal?_toDigits (n : Nat) : hexadecimal? (Nat.toDigits 16 n) = some n := by
  induction n using Nat.base_induction 16 (by decide) with
  | single m hm => simp [Nat.toDigits_of_lt_base hm, hexadecimal?, hexDigit?_digitChar hm]
  | digit m k hk hm ih =>
    rw [hexadecimal?] at ih
    rw [← Nat.toDigits_append_toDigits (by decide) hm hk, hexadecimal?, List.foldlM_append, ih,
      Nat.toDigits_of_lt_base hk]
    simp [hexDigit?_digitChar hk, Nat.mul_comm]

theorem isSome_hexDigit?_toDigits (n : Nat) : ∀ c ∈ Nat.toDigits 16 n, (hexDigit? c).isSome = true := by
  induction n using Nat.base_induction 16 (by decide) with
  | single m hm => simp [Nat.toDigits_of_lt_base hm, hexDigit?_digitChar hm]
  | digit m k hk hm ih =>
    rw [← Nat.toDigits_append_toDigits (by decide) hm hk, Nat.toDigits_of_lt_base hk]
    exact List.forall_mem_append.mpr ⟨ih, by simp [hexDigit?_digitChar hk]⟩

end JsonService.Text
