import Mathlib.Tactic.IntervalCases
import JsonService.Proofs.Text.Encoding

/-!
# The characters of encoded texts

The bytes of a text are read as its characters again, one by one and whatever follows.

**Results.**
* `symbolsFrom_more`, `symbolsFrom_last`: a byte that continues a character adds six bits to it.
* `symbolsFrom_char`: the bytes of a character are read as that character.
* `symbols_encode`.
-/
namespace JsonService.Text.Utf8

theorem toNat_ofNat {n : Nat} (h : n < 256) : (UInt8.ofNat n).toNat = n := by
  rw [UInt8.toNat_ofNat', Nat.mod_eq_of_lt h]

/-! ## Bytes that continue a character -/

section
variable {s : Begun} {m : Nat} (hm : m < 64) (hleast : s.least.toNat ≤ m + 128)
  (hgreatest : m + 128 ≤ s.greatest.toNat) (rest : List UInt8)
include hm hleast hgreatest

theorem symbolsFrom_more (howed : 1 < s.owed) :
    symbolsFrom (some s) (UInt8.ofNat (m + 128) :: rest) =
      symbolsFrom (some { code := s.code * 64 + m, taken := s.taken + 1, owed := s.owed - 1 }) rest := by
  have hb : (UInt8.ofNat (m + 128)).toNat = m + 128 := toNat_ofNat (by omega)
  have bits : (m + 128) % 64 = m := by omega
  have owes : ¬s.owed ≤ 1 := by omega
  simp only [symbolsFrom, step, UInt8.le_iff_toNat_le, hb, hleast, hgreatest, and_self, if_true, bits, owes,
    if_false, List.nil_append]

theorem symbolsFrom_last (howed : s.owed ≤ 1) :
    symbolsFrom (some s) (UInt8.ofNat (m + 128) :: rest) =
      .char (Char.ofNat (s.code * 64 + m)) :: symbolsFrom none rest := by
  have hb : (UInt8.ofNat (m + 128)).toNat = m + 128 := toNat_ofNat (by omega)
  have bits : (m + 128) % 64 = m := by omega
  simp only [symbolsFrom, step, UInt8.le_iff_toNat_le, hb, hleast, hgreatest, and_self, if_true, bits, howed,
    List.cons_append, List.nil_append]

end

/-! ## First bytes -/

theorem opening_one {n : Nat} (h : n < 0x80) : opening (UInt8.ofNat n) = .char (Char.ofNat n) := by
  have hb : (UInt8.ofNat n).toNat = n := toNat_ofNat (by omega)
  have lt : UInt8.ofNat n < 0x80 := UInt8.lt_iff_toNat_lt.mpr (by rw [hb]; exact h)
  simp only [opening, lt, if_true, hb]

theorem opening_two {n : Nat} (h₁ : 2 ≤ n) (h₂ : n < 32) :
    opening (UInt8.ofNat (n + 192)) = .begins { code := n, taken := 1, owed := 1 } := by
  have hb : (UInt8.ofNat (n + 192)).toNat = n + 192 := toNat_ofNat (by omega)
  have bits : (n + 192) % 32 = n := by omega
  simp only [opening, UInt8.lt_iff_toNat_lt, hb, bits]
  rw [if_neg, if_neg, if_pos]
  · simp; omega
  · simp; omega
  · simp

theorem opening_three {n : Nat} (h : n < 16) : ∃ least greatest : UInt8,
    opening (UInt8.ofNat (n + 224)) = .begins { code := n, taken := 1, owed := 2, least, greatest } ∧
      least.toNat = (if n = 0 then 0xA0 else 0x80) ∧ greatest.toNat = (if n = 13 then 0x9F else 0xBF) := by
  interval_cases n
  case «0» => exact ⟨0xA0, 0xBF, rfl, rfl, rfl⟩
  case «13» => exact ⟨0x80, 0x9F, rfl, rfl, rfl⟩
  all_goals exact ⟨0x80, 0xBF, rfl, rfl, rfl⟩

theorem opening_four {n : Nat} (h : n < 5) : ∃ least greatest : UInt8,
    opening (UInt8.ofNat (n + 240)) = .begins { code := n, taken := 1, owed := 3, least, greatest } ∧
      least.toNat = (if n = 0 then 0x90 else 0x80) ∧ greatest.toNat = (if n = 4 then 0x8F else 0xBF) := by
  match n, h with
  | 0, _ => exact ⟨0x90, 0xBF, rfl, rfl, rfl⟩
  | 4, _ => exact ⟨0x80, 0x8F, rfl, rfl, rfl⟩
  | 1, _ | 2, _ | 3, _ => exact ⟨0x80, 0xBF, rfl, rfl, rfl⟩

theorem symbolsFrom_begins {b : UInt8} {s : Begun} (h : opening b = .begins s) (rest : List UInt8) :
    symbolsFrom none (b :: rest) = symbolsFrom (some s) rest := by
  simp only [symbolsFrom, step, start, h, List.nil_append]

theorem symbolsFrom_one {n : Nat} (h : n < 0x80) (rest : List UInt8) :
    symbolsFrom none (UInt8.ofNat n :: rest) = .char (Char.ofNat n) :: symbolsFrom none rest := by
  simp only [symbolsFrom, step, start, opening_one h, List.cons_append, List.nil_append]

/-! ## Characters -/

theorem symbolsFrom_char (c : Char) (rest : List UInt8) :
    symbolsFrom none (String.utf8EncodeChar c ++ rest) = .char c :: symbolsFrom none rest := by
  obtain ⟨v, hv⟩ : ∃ v, v = c.val.toNat := ⟨_, rfl⟩
  have char : Char.ofNat v = c := hv ▸ Char.ofNat_toNat c
  have valid : v < 0xD800 ∨ (0xDFFF < v ∧ v < 0x110000) := hv ▸ c.valid
  simp only [String.utf8EncodeChar, ← hv]
  split
  · simp only [List.cons_append, List.nil_append]
    rw [symbolsFrom_one (by omega), char]
  split
  · have code : v / 64 % 32 * 64 + v % 64 = v := by omega
    simp only [List.cons_append, List.nil_append]
    rw [symbolsFrom_begins (opening_two (by omega) (by omega)),
      symbolsFrom_last (by omega) (by simp) (by simp; omega) _ (by simp), code, char]
  split
  · obtain ⟨least, greatest, lead, hleast, hgreatest⟩ := opening_three (n := v / 4096 % 16) (by omega)
    have code : (v / 4096 % 16 * 64 + v / 64 % 64) * 64 + v % 64 = v := by omega
    simp only [List.cons_append, List.nil_append]
    rw [symbolsFrom_begins lead,
      symbolsFrom_more (by omega) (by simp only [hleast]; split <;> omega)
        (by simp only [hgreatest]; split <;> omega) _ (by simp),
      symbolsFrom_last (by omega) (by simp) (by simp; omega) _ (by simp), code, char]
  · obtain ⟨least, greatest, lead, hleast, hgreatest⟩ := opening_four (n := v / 262144 % 8) (by omega)
    have code : ((v / 262144 % 8 * 64 + v / 4096 % 64) * 64 + v / 64 % 64) * 64 + v % 64 = v := by omega
    simp only [List.cons_append, List.nil_append]
    rw [symbolsFrom_begins lead,
      symbolsFrom_more (by omega) (by simp only [hleast]; split <;> omega)
        (by simp only [hgreatest]; split <;> omega) _ (by simp),
      symbolsFrom_more (by omega) (by simp) (by simp; omega) _ (by simp),
      symbolsFrom_last (by omega) (by simp) (by simp; omega) _ (by simp), code, char]

/-- The bytes of a text are read as its characters. -/
theorem symbols_encode (cs : List Char) : symbols (encode cs) = cs.map .char := by
  induction cs with
  | nil => rfl
  | cons c cs ih =>
    rw [symbols] at ih
    rw [symbols, show encode (c :: cs) = String.utf8EncodeChar c ++ encode cs from rfl, symbolsFrom_char, ih,
      List.map_cons]

/-- A text that begins with the bytes of a character begins with it. -/
theorem encode_eq_char_append {cs : List Char} {c : Char} {y : List UInt8}
    (h : encode cs = String.utf8EncodeChar c ++ y) : ∃ ds, cs = c :: ds ∧ y = encode ds := by
  cases cs with
  | nil => exact absurd (List.append_eq_nil_iff.mp h.symm).1 String.utf8EncodeChar_ne_nil
  | cons d ds =>
    rw [encode_cons] at h
    have read := congrArg (symbolsFrom none) h
    rw [symbolsFrom_char, symbolsFrom_char] at read
    obtain rfl := Symbol.char.inj (List.cons.inj read).1
    exact ⟨ds, rfl, (List.append_cancel_left h).symm⟩

/-- Characters are the symbols that are read back. -/
theorem mapM_char? (cs : List Char) : (cs.map Symbol.char).mapM Symbol.char? = some cs := by
  induction cs with
  | nil => rfl
  | cons c cs ih => simp [List.mapM_cons, Symbol.char?, ih]

end JsonService.Text.Utf8
