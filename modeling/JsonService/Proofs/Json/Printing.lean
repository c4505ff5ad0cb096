import JsonService.Json.Printer
import JsonService.Proofs.Json.Reading

/-!
# What the printer writes

The printed text of a value is a text of the grammar that writes this value, and so it is read as its canonical form.
Of its numbers this has to be known; all else is printed so that it is read back.

**Results.**
* `spells_escape`: an escaped text spells the text.
* `written_chars`: the text of a value writes it.
* `parse_render`.
-/
namespace JsonService.Json

/-! ## Strings -/

/-- The short escapes are those that a reader knows. -/
theorem unescape?_shortEscape? {c e : Char} (h : shortEscape? c = some e) : Token.unescape? e = some c := by
  unfold shortEscape? at h
  split_ifs at h <;> cases h <;> subst c <;> rfl

/-- The long escape of a control character spells its code. -/
theorem code?_control {n : Nat} (h : n < 0x20) :
    code? '0' '0' (Nat.digitChar (n / 16)) (Nat.digitChar (n % 16)) = some n := by
  have all : ∀ n ∈ List.range 0x20, code? '0' '0' (Nat.digitChar (n / 16)) (Nat.digitChar (n % 16)) = some n := by
    decide +kernel
  exact all n (List.mem_range.mpr h)

/-- An escaped text spells the text. -/
theorem spells_escape (s : List Char) : Spells (s.flatMap escapeChar) s := by
  induction s with
  | nil => exact .nil
  | cons c s ih =>
    rw [List.flatMap_cons, escapeChar]
    cases short : shortEscape? c with
    | some e => exact .short (unescape?_shortEscape? short) ih
    | none =>
      by_cases control : c.toNat < 0x20
      · have low : Token.isLeading c.toNat = false ∧ Token.isTrailing c.toNat = false := by
          simp only [Token.isLeading, Token.isTrailing, decide_eq_false_iff_not]
          omega
        have spelled := Spells.code (code?_control control) low.1 low.2 ih
        rw [Char.ofNat_toNat] at spelled
        simp only [control, if_true]
        exact spelled
      · simp only [control, if_false]
        refine .plain ?_ ?_ (Nat.not_lt.mp control) ih <;> rintro rfl <;> cases short

/-! ## Values -/

mutual

def numbers : Json → List Number
  | .number n => [n]
  | .list vs => numbersOfItems vs
  | .object ms => numbersOfMembers ms
  | _ => []

def numbersOfItems : List Json → List Number
  | [] => []
  | v :: vs => numbers v ++ numbersOfItems vs

def numbersOfMembers : List (String × Json) → List Number
  | [] => []
  | (_, v) :: ms => numbers v ++ numbersOfMembers ms

end

/-- The text of a number is a numeral of that number. -/
def Number.ReadsBack (n : Number) : Prop := ∃ s, Numeral n.render.toList s ∧ s.value 0 = .ok n

/-- The text of a value writes it. -/
def Prints (v : Json) : Prop := Written (.value v) v.chars

theorem Blanks.nil : Blanks [] := fun _ h => nomatch h

theorem Written.bare {v : Json} {t : List Char} (h : Written (.value v) t) : Written (.element v) t := by
  simpa using Written.element .nil h .nil

theorem Prints.member {v : Json} (h : v.Prints) (key : String) :
    Written (.member key v) (quote key ++ ':' :: v.chars) := by
  have := Written.member .nil (spells_escape key.toList) .nil h.bare
  simpa [quote, String.ofList_toList] using this

/-- The texts of the items, up to the bracket that closes the list. -/
theorem written_items {v : Json} {vs : List Json} (h : ∀ w ∈ v :: vs, w.Prints) :
    ∃ t, v.chars ++ itemChars vs = t ++ [']'] ∧ Written (.elements (v :: vs)) t := by
  induction vs generalizing v with
  | nil => exact ⟨v.chars, rfl, .lastElement (h v (List.mem_cons_self ..)).bare⟩
  | cons w vs ih =>
    obtain ⟨t, printed, written⟩ := ih fun u hu => h u (List.mem_cons_of_mem _ hu)
    refine ⟨v.chars ++ ',' :: t, ?_, .elements (h v (List.mem_cons_self ..)).bare written⟩
    simp only [itemChars, printed, List.append_assoc, List.cons_append]

/-- The texts of the members, up to the brace that closes the object. -/
theorem written_members {m : String × Json} {ms : List (String × Json)} (h : ∀ m' ∈ m :: ms, m'.2.Prints) :
    ∃ t, quote m.1 ++ ':' :: (m.2.chars ++ memberChars ms) = t ++ ['\x7d'] ∧ Written (.members (m :: ms)) t := by
  induction ms generalizing m with
  | nil =>
    refine ⟨_, ?_, .lastMember ((h m (List.mem_cons_self ..)).member m.1)⟩
    simp only [memberChars, List.append_assoc, List.cons_append]
  | cons m' ms ih =>
    obtain ⟨t, printed, written⟩ := ih fun u hu => h u (List.mem_cons_of_mem _ hu)
    refine ⟨_, ?_, .members ((h m (List.mem_cons_self ..)).member m.1) written⟩
    simp only [memberChars, printed, List.append_assoc, List.cons_append]

theorem mem_numbersOfItems {n : Number} {v : Json} {vs : List Json} (hv : v ∈ vs) (hn : n ∈ v.numbers) :
    n ∈ numbersOfItems vs := by
  induction hv with
  | head => exact List.mem_append_left _ hn
  | tail _ _ ih => exact List.mem_append_right _ ih

theorem mem_numbersOfMembers {n : Number} {m : String × Json} {ms : List (String × Json)} (hm : m ∈ ms)
    (hn : n ∈ m.2.numbers) : n ∈ numbersOfMembers ms := by
  induction hm with
  | head => exact List.mem_append_left _ hn
  | tail _ _ ih => exact List.mem_append_right _ ih

/-- The text of a value writes it, if this is so for every number in it. -/
theorem written_chars (v : Json) (h : ∀ n ∈ v.numbers, n.ReadsBack) : v.Prints := by
  induction v using induct with
  | null => exact .null
  | bool b =>
    cases b with
    | true => exact .true
    | false => exact .false
  | number n =>
    obtain ⟨s, numeral, value⟩ := h n (List.mem_singleton_self n)
    exact .number numeral value
  | text s =>
    have := Written.text (spells_escape s.toList)
    rwa [String.ofList_toList] at this
  | list vs ih =>
    have items : ∀ v ∈ vs, v.Prints := fun v hv => ih v hv fun n hn => h n (mem_numbersOfItems hv hn)
    cases vs with
    | nil => exact .emptyList .nil
    | cons v vs =>
      obtain ⟨t, printed, written⟩ := written_items items
      rw [Prints, chars, printed]
      exact .list written
  | object ms ih =>
    have members : ∀ m ∈ ms, m.2.Prints := fun m hm => ih m hm fun n hn => h n (mem_numbersOfMembers hm hn)
    cases ms with
    | nil => exact .emptyObject .nil
    | cons m ms =>
      obtain ⟨t, printed, written⟩ := written_members members
      obtain ⟨key, v⟩ := m
      rw [Prints, chars, printed]
      exact .object written

theorem bytes_render (v : Json) : Text.Utf8.bytes v.render = Text.Utf8.encode v.chars := by
  rw [Text.Utf8.bytes, render, String.toList_ofList]

/-- A printed value is read as its canonical form. -/
theorem parse_render {v : Json} (h : ∀ n ∈ v.numbers, n.ReadsBack) (shallow : v.depth < Reader.depthLimit) :
    parse (Text.Utf8.bytes v.render) = .ok v.canonical := by
  rw [bytes_render]
  exact parse_written (written_chars v h).bare shallow

end JsonService.Json
