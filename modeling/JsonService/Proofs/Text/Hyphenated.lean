import JsonService.Proofs.Text.Encoding
import JsonService.Proofs.Text.Identifiers
import JsonService.Proofs.Validation

/-!
# UUIDs that a rule lets pass

A rule on a text lets pass what takes thirty-six bytes and is a UUID in any of its four forms. Only the hyphenated form
takes as many: whatever is a UUID is written in ASCII, one byte for each character, and the other forms have 32, 38 or
45 characters.

**Results.**
* `hexDigit_iff`, `exists_hyphenated`: the hyphenated form place by place (`HyphenatedForm`).
* `Written.ascii`, `utf8ByteSize_ascii`: what spells a UUID takes one byte for each character.
* `isHyphenatedUuid_iff`.
* `uuid_passes`: so only the hyphenated form passes, and what the rule reports of every other text.
-/
namespace JsonService

namespace Uuid

/-! ## Place by place -/

/-- A hexadecimal digit, small or large. -/
def HexDigit (c : Char) : Prop := ('0' ≤ c ∧ c ≤ '9') ∨ ('a' ≤ c ∧ c ≤ 'f') ∨ ('A' ≤ c ∧ c ≤ 'F')

/-- Thirty-six characters: hyphens in four places, and hexadecimal digits in all others. -/
structure HyphenatedForm (cs : List Char) : Prop where
  length : cs.length = 36
  hyphens : ∀ i ∈ [8, 13, 18, 23], cs[i]? = some '-'
  digits : ∀ i c, i ∉ [8, 13, 18, 23] → cs[i]? = some c → HexDigit c

theorem hexDigit_iff {c : Char} : HexDigit c ↔ ∃ d, digit? c = some d := by
  unfold HexDigit digit? Text.hexDigit?
  split
  · next h => simp [h]
  split
  · next h => simp [h]
  split
  · next h => simp [h]
  · next h₁ h₂ h₃ => simp [h₁, h₂, h₃]

theorem forall_hexDigit {cs : List Char} : (∀ c ∈ cs, HexDigit c) ↔ ∃ ds, cs.mapM digit? = some ds := by
  induction cs with
  | nil => simp
  | cons c cs ih =>
    rw [List.forall_mem_cons, hexDigit_iff, ih]
    simp [List.mapM_cons, Option.bind_eq_some_iff]

theorem exists_ofSimple? {cs : List Char} :
    (∃ u, ofSimple? cs = some u) ↔ cs.length = 32 ∧ ∀ c ∈ cs, HexDigit c := by
  simp only [ofSimple?_eq_some, forall_hexDigit]
  constructor
  · rintro ⟨u, bare⟩
    exact ⟨bare.length, u.digits, mapM_digit?_eq_some.mpr bare⟩
  · rintro ⟨length, ds, read⟩
    have bare := mapM_digit?_eq_some.mp read
    have same := congrArg List.length bare
    rw [List.length_map, List.length_map, length] at same
    exact ⟨⟨ds, same.symm⟩, bare⟩

theorem mem_groups {cs : List Char} (length : cs.length = 36) {c : Char} :
    c ∈ cs.take 8 ++ (cs.drop 9).take 4 ++ (cs.drop 14).take 4 ++ (cs.drop 19).take 4 ++ cs.drop 24 ↔
      ∃ i, i ∉ [8, 13, 18, 23] ∧ cs[i]? = some c := by
  have group : ∀ {n m : Nat}, c ∈ (cs.drop n).take m ↔ ∃ i, (n ≤ i ∧ i < n + m) ∧ cs[i]? = some c := by
    intro n m
    simp only [List.mem_iff_getElem?, List.getElem?_take, List.getElem?_drop]
    constructor
    · rintro ⟨i, hi⟩
      split at hi
      · exact ⟨n + i, by omega, hi⟩
      · cases hi
    · rintro ⟨i, within, hi⟩
      refine ⟨i - n, ?_⟩
      rw [if_pos (by omega), show n + (i - n) = i by omega, hi]
  have first : cs.take 8 = (cs.drop 0).take 8 := rfl
  have last : cs.drop 24 = (cs.drop 24).take 12 := (List.take_of_length_le (by simp [length])).symm
  rw [first, last]
  simp only [List.mem_append, group, ← exists_or, ← or_and_right]
  refine exists_congr fun i => and_congr_left fun hi => ?_
  have inside : i < 36 := length ▸ (List.getElem?_eq_some_iff.mp hi).1
  simp only [List.mem_cons, List.not_mem_nil, or_false]
  omega

/-- The hyphenated form of some UUID, place by place. -/
theorem exists_hyphenated {cs : List Char} : (∃ u, Hyphenated u cs) ↔ HyphenatedForm cs := by
  have hyphens : hyphenPlaces.all (fun i => cs[i]? = some '-') = true ↔ ∀ i ∈ [8, 13, 18, 23], cs[i]? = some '-' := by
    simp [hyphenPlaces]
  simp only [← ofHyphenated?_eq_some, ofHyphenated?, hyphens]
  constructor
  · rintro ⟨u, h⟩
    split at h
    · next shape =>
      obtain ⟨-, digits⟩ := exists_ofSimple?.mp ⟨u, h⟩
      exact ⟨shape.1, shape.2, fun i c hi hc => digits c ((mem_groups shape.1).mpr ⟨i, hi, hc⟩)⟩
    · cases h
  · rintro ⟨length, hyphens, digits⟩
    rw [if_pos ⟨length, hyphens⟩]
    refine exists_ofSimple?.mpr ⟨by simp [length], fun c hc => ?_⟩
    obtain ⟨i, hi, hc⟩ := (mem_groups length).mp hc
    exact digits i c hi hc

theorem HyphenatedForm.char {cs : List Char} (h : HyphenatedForm cs) {c : Char} (hc : c ∈ cs) :
    HexDigit c ∨ c = '-' := by
  obtain ⟨i, hi⟩ := List.mem_iff_getElem?.mp hc
  by_cases place : i ∈ [8, 13, 18, 23]
  · rw [h.hyphens i place, Option.some.injEq] at hi
    exact .inr hi.symm
  · exact .inl (h.digits i c place hi)

/-! ## Bytes -/

theorem HexDigit.ascii {c : Char} (h : HexDigit c) : c.toNat < 128 := by
  have below : ∀ m : Char, m.toNat < 128 → c ≤ m → c.toNat < 128 := fun m hm le => Nat.lt_of_le_of_lt le hm
  rcases h with ⟨-, h⟩ | ⟨-, h⟩ | ⟨-, h⟩
  · exact below '9' (by decide) h
  · exact below 'f' (by decide) h
  · exact below 'F' (by decide) h

theorem HyphenatedForm.ascii {cs : List Char} (h : HyphenatedForm cs) : ∀ c ∈ cs, c.toNat < 128 := by
  intro c hc
  rcases h.char hc with digit | rfl
  · exact digit.ascii
  · decide

theorem ascii_of_toLower {c : Char} (h : c.toLower.toNat < 128) : c.toNat < 128 := by
  have letters : ∀ n ∈ List.range' 65 26, (Char.ofNat n).toNat < 128 := by decide +kernel
  rcases Text.toLower_cases c with same | ⟨n, hn, rfl⟩
  · rwa [same] at h
  · exact letters n hn

theorem Written.ascii {u : Uuid} {cs : List Char} (h : Written u cs) : ∀ c ∈ cs, c.toNat < 128 := by
  cases h with
  | bare digits =>
    intro c hc
    exact (forall_hexDigit.mpr ⟨u.digits, mapM_digit?_eq_some.mpr digits⟩ c hc).ascii
  | hyphenated groups => exact (exists_hyphenated.mp ⟨u, groups⟩).ascii
  | braced groups =>
    intro c hc
    simp only [List.cons_append, List.mem_cons, List.mem_append, List.not_mem_nil, or_false] at hc
    rcases hc with rfl | hc | rfl
    · decide
    · exact (exists_hyphenated.mp ⟨u, groups⟩).ascii c hc
    · decide
  | @named mark _ small groups =>
    have letters : ∀ c ∈ "urn:uuid:".toList, c.toNat < 128 := by simp
    intro c hc
    rcases List.mem_append.mp hc with hc | hc
    · exact ascii_of_toLower (letters _ (small ▸ List.mem_map_of_mem hc))
    · exact (exists_hyphenated.mp ⟨u, groups⟩).ascii c hc

theorem utf8ByteSize_ascii {s : String} (h : ∀ c ∈ s.toList, c.toNat < 128) : s.utf8ByteSize = s.toList.length := by
  have bytes : s.utf8ByteSize = (Text.Utf8.encode s.toList).length := by
    rw [← String.size_toByteArray, ← String.utf8Encode_toList]
    exact List.size_toByteArray
  rw [bytes]
  generalize s.toList = cs at h
  induction cs with
  | nil => rfl
  | cons c cs ih =>
    obtain ⟨hc, hcs⟩ := List.forall_mem_cons.mp h
    have one : c.utf8Size = 1 := Char.utf8Size_eq_one_iff.mpr (Nat.le_of_lt_succ hc)
    rw [Text.Utf8.encode_cons, List.length_append, String.length_utf8EncodeChar, one, ih hcs, List.length_cons,
      Nat.add_comm]

/-! ## The form that passes -/

/-- Of what spells a UUID only the hyphenated form has thirty-six characters. -/
theorem Written.hyphenated_of_length {u : Uuid} {cs : List Char} (h : Written u cs) (length : cs.length = 36) :
    Hyphenated u cs := by
  cases h with
  | bare digits => exact absurd (length ▸ digits.length) (by decide)
  | hyphenated groups => exact groups
  | braced groups => simp [groups.length] at length
  | @named mark _ small groups =>
    have short : mark.length = 9 := by simpa using congrArg List.length small
    simp [short, groups.length] at length

theorem isHyphenatedUuid_iff {s : String} : Rule.isHyphenatedUuid s = true ↔ HyphenatedForm s.toList := by
  simp only [Rule.isHyphenatedUuid, Bool.and_eq_true, decide_eq_true_eq, Option.isSome_iff_exists, parse?_eq_some,
    ← exists_hyphenated]
  constructor
  · rintro ⟨size, u, written⟩
    exact ⟨u, written.hyphenated_of_length (utf8ByteSize_ascii written.ascii ▸ size)⟩
  · rintro ⟨u, groups⟩
    have written : Written u s.toList := .hyphenated groups
    exact ⟨utf8ByteSize_ascii written.ascii ▸ groups.length, u, written⟩

/-- No blank is a digit of a UUID or a hyphen. -/
theorem HyphenatedForm.not_blank {cs : List Char} (h : HyphenatedForm cs) {c : Char} (hc : c ∈ cs) :
    Text.isBlank c = false := by
  have all : ∀ n ∈ List.range 128, (HexDigit (Char.ofNat n) ∨ Char.ofNat n = '-') →
      Text.isBlank (Char.ofNat n) = false := by
    unfold HexDigit
    decide +kernel
  exact Text.ascii_forall (P := fun c => (HexDigit c ∨ c = '-') → Text.isBlank c = false) all (h.ascii c hc) (h.char hc)

end Uuid

namespace Rule

open Uuid (HyphenatedForm Bare Hyphenated)

/-- **Only the hyphenated form passes.** A text passes just if it has thirty-six characters, all of ASCII, with hyphens
in the places 8, 13, 18 and 23 and hexadecimal digits of either case in all others. So what passes has no blank in it
and is neither the bare digits of a UUID, nor a UUID in braces, nor one that is written as a name. At the end of a chain
of rules a text that passes adds nothing to the report, and every other text is reported unless its field has been. -/
theorem uuid_passes (field value : String) :
    ((uuid field value).holds = true ↔ HyphenatedForm value.toList) ∧
    ((uuid field value).holds = true →
      (∀ c ∈ value.toList, c.toNat < 128 ∧ Text.isBlank c = false) ∧
      ∀ u, ¬Bare u value.toList ∧ ∀ inner, Hyphenated u inner → value.toList ≠ '\x7b' :: inner ++ ['\x7d'] ∧
        ∀ mark, mark.map Char.toLower = "urn:uuid:".toList → value.toList ≠ mark ++ inner) ∧
    ∀ before : List Rule, check (before ++ [uuid field value]) = check before ++
      if (uuid field value).holds = true ∨ field ∈ (check before).map (·.field) then []
      else [⟨field, s!"{field} must be a valid UUID"⟩] := by
  have passes : (uuid field value).holds = true ↔ HyphenatedForm value.toList := Uuid.isHyphenatedUuid_iff
  refine ⟨passes, fun holds => ?_, fun before => ?_⟩
  · have form := passes.mp holds
    refine ⟨fun c hc => ⟨form.ascii c hc, form.not_blank hc⟩, fun u => ⟨fun bare => ?_, fun inner groups => ⟨?_, ?_⟩⟩⟩
    · exact absurd (form.length ▸ bare.length) (by decide)
    · intro braces
      have length := form.length
      simp [braces, groups.length] at length
    · intro mark small named
      have short : mark.length = 9 := by simpa using congrArg List.length small
      have length := form.length
      simp [named, short, groups.length] at length
  · have known : ((check before).any (·.field = (uuid field value).field)) = true ↔
        field ∈ (check before).map (·.field) := by
      simp only [List.any_eq_true, List.mem_map, decide_eq_true_eq]
      rfl
    rw [check_concat, report]
    simp only [known]
    split
    · rw [List.append_nil]
    · rfl

/-- Digits in either case. -/
theorem uuid_passes_mixed : (uuid "id" "67E55044-10b1-426F-9247-bb680e5fe0c8").holds = true ∧
    HyphenatedForm "67E55044-10b1-426F-9247-bb680e5fe0c8".toList ∧
    ∀ c ∈ "67E55044-10b1-426F-9247-bb680e5fe0c8".toList, Text.isBlank c = false := by
  have holds : (uuid "id" "67E55044-10b1-426F-9247-bb680e5fe0c8").holds = true := by decide +kernel
  obtain ⟨passes, only, -⟩ := uuid_passes "id" "67E55044-10b1-426F-9247-bb680e5fe0c8"
  exact ⟨holds, passes.mp holds, fun c hc => ((only holds).1 c hc).2⟩

/-- Thirty-six bytes are not enough: here two of them are one character. -/
example : (uuid "id" "67e55044-10b1-426f-9247-bb680e5fe0é").holds = false := by decide +kernel

end Rule

end JsonService
