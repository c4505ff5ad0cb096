import JsonService.Text.Utf8

/-!
# The bytes of a text

A text is known by its bytes, and a byte below 128 is a character of its own wherever it occurs, so bytes may
be searched for such characters in place of the text.
-/
namespace JsonService.Text.Utf8

theorem bytes_ofList (cs : List Char) : bytes (String.ofList cs) = encode cs := by
  rw [bytes, String.toList_ofList]

theorem encode_append (as bs : List Char) : encode (as ++ bs) = encode as ++ encode bs := List.flatMap_append

theorem encode_cons (c : Char) (cs : List Char) : encode (c :: cs) = String.utf8EncodeChar c ++ encode cs := rfl

theorem encode_eq_nil {cs : List Char} : encode cs = [] ↔ cs = [] := by
  cases cs with
  | nil => simp [encode]
  | cons c cs => simp [encode_cons, String.utf8EncodeChar_ne_nil]

theorem encode_injective {as bs : List Char} (h : encode as = encode bs) : as = bs := by
  have hbytes : as.utf8Encode = bs.utf8Encode := congrArg List.toByteArray h
  have hstring : String.ofList as = String.ofList bs := by
    rw [← String.toByteArray_inj, String.toByteArray_ofList, String.toByteArray_ofList, hbytes]
  rw [← String.toList_ofList (l := as), hstring, String.toList_ofList]

theorem utf8EncodeChar_of_mem {b : UInt8} {c : Char} (h : b ∈ String.utf8EncodeChar c) (hb : b < 0x80) :
    String.utf8EncodeChar c = [b] := by
  have high : ∀ x y : UInt8, 0x80 ≤ y → ¬ (x ||| y) < 0x80 := by
    intro x y hy hlt
    have hle : y.toNat ≤ (x ||| y).toNat := by
      rw [UInt8.toNat_or]
      exact Nat.right_le_or
    rw [UInt8.le_iff_toNat_le] at hy
    rw [UInt8.lt_iff_toNat_lt] at hlt
    omega
  match hsize : c.utf8Size, c.utf8Size_pos, c.utf8Size_le_four with
  | 1, _, _ =>
    rw [String.utf8EncodeChar_eq_singleton hsize] at h ⊢
    rw [List.mem_singleton.mp h]
  | 2, _, _ =>
    rw [String.utf8EncodeChar_eq_cons_cons hsize] at h
    simp only [List.mem_cons, List.not_mem_nil, or_false] at h
    rcases h with rfl | rfl
    · exact absurd hb (high _ _ (by decide))
    · exact absurd hb (high _ _ (by decide))
  | 3, _, _ =>
    rw [String.utf8EncodeChar_eq_cons_cons_cons hsize] at h
    simp only [List.mem_cons, List.not_mem_nil, or_false] at h
    rcases h with rfl | rfl | rfl
    · exact absurd hb (high _ _ (by decide))
    · exact absurd hb (high _ _ (by decide))
    · exact absurd hb (high _ _ (by decide))
  | 4, _, _ =>
    rw [String.utf8EncodeChar_eq_cons_cons_cons_cons hsize] at h
    simp only [List.mem_cons, List.not_mem_nil, or_false] at h
    rcases h with rfl | rfl | rfl | rfl
    · exact absurd hb (high _ _ (by decide))
    · exact absurd hb (high _ _ (by decide))
    · exact absurd hb (high _ _ (by decide))
    · exact absurd hb (high _ _ (by decide))

/-- A character below 128 is in a text if its byte is among those of the text. -/
theorem mem_encode {d : Char} {b : UInt8} (hd : String.utf8EncodeChar d = [b]) (hb : b < 0x80) {cs : List Char} :
    b ∈ encode cs ↔ d ∈ cs := by
  rw [encode, List.mem_flatMap]
  constructor
  · intro hex
    obtain ⟨c, hc, hbc⟩ := hex
    have hsame : encode [c] = encode [d] := by
      simp only [encode, List.flatMap_cons, List.flatMap_nil, utf8EncodeChar_of_mem hbc hb, hd]
    cases encode_injective hsame
    exact hc
  · intro h
    exact ⟨d, h, hd ▸ List.mem_singleton_self b⟩

/-- A text begins with a character below 128 if its bytes begin with that byte. -/
theorem head_encode {c d : Char} {b : UInt8} (hd : String.utf8EncodeChar d = [b]) (hb : b < 0x80)
    (cs : List Char) : (encode (c :: cs)).head? = some b ↔ c = d := by
  constructor
  · intro h
    obtain ⟨x, xs, hx⟩ := List.ne_nil_iff_exists_cons.mp (String.utf8EncodeChar_ne_nil (c := c))
    rw [encode_cons, hx] at h
    obtain rfl : x = b := Option.some.inj h
    have hmem : x ∈ encode [c] := by simp [encode, hx]
    exact (List.mem_singleton.mp ((mem_encode hd hb).mp hmem)).symm
  · intro heq
    subst heq
    rw [encode_cons, hd]
    rfl

/-- A text may be cut before a byte that a character begins with, and nowhere else. -/
theorem encode_eq_append {cs : List Char} {x y : List UInt8} (h : encode cs = x ++ y)
    (boundary : ∀ b ∈ y.head?, b.IsUTF8FirstByte) :
    ∃ as bs, cs = as ++ bs ∧ x = encode as ∧ y = encode bs := by
  induction cs generalizing x with
  | nil =>
    obtain ⟨rfl, rfl⟩ := List.append_eq_nil_iff.mp h.symm
    exact ⟨[], [], rfl, rfl, rfl⟩
  | cons c cs ih =>
    rw [encode_cons] at h
    rcases List.append_eq_append_iff.mp h with ⟨x', rfl, hcs⟩ | ⟨inside, hc, rfl⟩
    · obtain ⟨as, bs, rfl, rfl, rfl⟩ := ih hcs
      exact ⟨c :: as, bs, rfl, rfl, rfl⟩
    · -- the cut is before the character or after it, since only its first byte may stand first
      cases inside with
      | nil =>
        rw [List.append_nil] at hc
        exact ⟨[c], cs, rfl, by simp [encode, hc], rfl⟩
      | cons b inside =>
        have first : b.IsUTF8FirstByte := boundary b rfl
        have lt : x.length < (String.utf8EncodeChar c).length := by simp [hc]
        have at_ : (String.utf8EncodeChar c)[x.length] = b := by simp [hc]
        rw [← at_, UInt8.isUTF8FirstByte_getElem_utf8EncodeChar, List.length_eq_zero_iff] at first
        exact ⟨[], c :: cs, rfl, first, by rw [encode_cons, hc, first, List.nil_append]⟩

theorem head_isUTF8FirstByte (c : Char) : ∀ b ∈ (String.utf8EncodeChar c).head?, b.IsUTF8FirstByte := by
  intro b hb
  obtain ⟨bs, hbs⟩ := List.head?_eq_some_iff.mp hb
  have lt : 0 < (String.utf8EncodeChar c).length := by simp [hbs]
  have at_ : (String.utf8EncodeChar c)[0] = b := by simp [hbs]
  rw [← at_]
  exact UInt8.isUTF8FirstByte_getElem_utf8EncodeChar.mpr rfl

end JsonService.Text.Utf8
