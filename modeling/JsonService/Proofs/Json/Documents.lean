import JsonService.Json.Document
import JsonService.Proofs.Json.Reading

/-!
# What typed readers read

A typed reader takes the tokens of a value and leaves what follows them. Here is what the readers of texts, lists and
records read of the tokens of values that have their shape.

**Reading (`Document.Reads`).** Tokens of some kinds make some content, at any place of a text and with anything behind
them.

**Filling (`Record.Fills`).** The members of an object fill a record one by one, each a field that has not been filled
yet, and none is left that has to be there.

**Results.**
* `reads_list`, `Fills.reads`: the reader of a list, and of a record from an object.
* `parse_reads`: what a reader reads of a whole text.
-/
namespace JsonService.Json

open Token (Kind)

/-! ## Kinds -/

/-- The comma before every item or member but the first. -/
def comma? (first : Bool) : List Kind := if first then [] else [.comma]

/-- The kinds of the tokens of items, with the comma before the first of them if it comes after others. -/
def itemKinds : Bool → List Json → List Kind
  | _, [] => []
  | first, v :: vs => comma? first ++ (v.kinds ++ itemKinds false vs)

def keyKinds (first : Bool) (k : String) : List Kind := comma? first ++ [.text (.ok k)]

def memberKinds : Bool → List (String × Json) → List Kind
  | _, [] => []
  | first, (k, v) :: ms => keyKinds first k ++ ([.colon] ++ (v.kinds ++ memberKinds false ms))

theorem kindsOfItems_eq (vs : List Json) : kindsOfItems vs = itemKinds true vs := by
  induction vs with
  | nil => rfl
  | cons v vs ih =>
    cases vs with
    | nil => simp [kindsOfItems, itemKinds, comma?]
    | cons w vs =>
      rw [kindsOfItems, ih]
      rfl

theorem kindsOfMembers_eq (ms : List (String × Json)) : kindsOfMembers ms = memberKinds true ms := by
  induction ms with
  | nil => rfl
  | cons m ms ih =>
    obtain ⟨k, v⟩ := m
    cases ms with
    | nil => simp [kindsOfMembers, memberKinds, keyKinds, comma?]
    | cons m ms =>
      rw [kindsOfMembers, ih]
      simp [memberKinds, keyKinds, comma?]

theorem kinds_head (v : Json) : ∃ k ks, v.kinds = k :: ks ∧ k ≠ .closeList := by
  cases v <;> exact ⟨_, _, rfl, by simp⟩

theorem length_le_itemKinds (first : Bool) (vs : List Json) : vs.length ≤ (itemKinds first vs).length := by
  induction vs generalizing first with
  | nil => exact Nat.zero_le _
  | cons v vs ih =>
    obtain ⟨k, ks, head, -⟩ := kinds_head v
    have := ih false
    simp only [itemKinds, head, List.length_append, List.length_cons]
    omega

theorem length_le_memberKinds (first : Bool) (ms : List (String × Json)) :
    ms.length ≤ (memberKinds first ms).length := by
  induction ms generalizing first with
  | nil => exact Nat.zero_le _
  | cons m ms ih =>
    have := ih false
    simp only [memberKinds, List.length_append, List.length_cons]
    omega

namespace Document

variable {σ α β : Type} {d : Document α} {ks : List Kind} {a : α}

/-- Tokens of these kinds make the content, whatever stands before and behind them. -/
def Reads (d : Document α) (kinds : List Kind) (a : α) : Prop :=
  ∀ size tokens rest, tokens.map (·.kind) = kinds → d size (tokens ++ rest) = .ok (a, rest)

theorem one_token {tokens : List Token} {k : Kind} (h : tokens.map (·.kind) = [k]) :
    ∃ t : Token, tokens = [t] ∧ t.kind = k := by
  obtain ⟨t, ts, rfl, kind, none⟩ := List.map_eq_cons_iff.mp h
  exact ⟨t, by rw [List.map_eq_nil_iff.mp none], kind⟩

theorem reads_text (expected s : String) : (text expected).Reads [.text (.ok s)] s := by
  intro size tokens rest h
  obtain ⟨t, rfl, kind⟩ := one_token h
  simp only [List.singleton_append, text, kind]

theorem reads_colon : colon.Reads [.colon] () := by
  intro size tokens rest h
  obtain ⟨t, rfl, kind⟩ := one_token h
  simp only [List.singleton_append, colon, kind]

theorem Reads.map (h : d.Reads ks a) (f : α → β) : (d.map f).Reads ks (f a) := by
  intro size tokens rest kinds
  simp only [Document.map, h size tokens rest kinds]
  rfl

/-- What is not null is there. -/
theorem Reads.optional {k : Kind} (h : d.Reads (k :: ks) a) (there : k ≠ .null) :
    d.optional.Reads (k :: ks) (some a) := by
  intro size tokens rest kinds
  obtain ⟨t, ts, rfl, kind, more⟩ := List.map_eq_cons_iff.mp kinds
  have reads := h.map some size (t :: ts) rest kinds
  simp only [List.cons_append, Document.optional] at reads ⊢
  split
  · next null => exact absurd (kind.symm.trans null) there
  · exact reads

/-! ## Lists -/

theorem another_item {first : Bool} {tokens : List Token} (comma : tokens.map (·.kind) = comma? first)
    {t : Token} (item : t.kind ≠ .closeList) (size : Nat) (ts : List Token) :
    another first size (tokens ++ t :: ts) = .ok (true, t :: ts) := by
  cases first with
  | true =>
    obtain rfl := List.map_eq_nil_iff.mp comma
    simp only [List.nil_append, another]
    split <;> simp_all
  | false =>
    obtain ⟨c, rfl, kind⟩ := one_token comma
    simp only [List.singleton_append, another, kind]
    split <;> simp_all

theorem reads_items {item : Document α} {encode : α → Json} (h : ∀ a, item.Reads (encode a).kinds a) (as : List α) :
    ∀ (fuel : Nat) (first : Bool), as.length < fuel →
      (items item fuel first).Reads (itemKinds first (as.map encode) ++ [.closeList]) as := by
  induction as with
  | nil =>
    intro fuel first room size tokens rest kinds
    obtain ⟨fuel, rfl⟩ : ∃ f, fuel = f + 1 := ⟨fuel - 1, by simp only [List.length_nil] at room; omega⟩
    obtain ⟨t, rfl, kind⟩ := one_token kinds
    simp only [items, List.singleton_append, another, endList, kind, bind, Except.bind]
    rfl
  | cons a as ih =>
    intro fuel first room size tokens rest kinds
    obtain ⟨fuel, rfl⟩ : ∃ f, fuel = f + 1 := ⟨fuel - 1, by simp only [List.length_cons] at room; omega⟩
    simp only [List.map_cons, itemKinds, List.append_assoc] at kinds
    obtain ⟨before, behind, rfl, comma, kinds⟩ := List.map_eq_append_iff.mp kinds
    obtain ⟨value, others, rfl, taken, more⟩ := List.map_eq_append_iff.mp kinds
    obtain ⟨k, ks, head, begins⟩ := kinds_head (encode a)
    obtain ⟨t, ts, rfl, kind, -⟩ := List.map_eq_cons_iff.mp (taken.trans head)
    have item := h a size (t :: ts) (others ++ rest) taken
    have others := ih fuel false (by simpa using room) size others rest more
    simp only [List.append_assoc, List.cons_append] at item ⊢
    simp only [items, another_item comma (kind ▸ begins), bind, Except.bind, if_true, item, others]
    rfl

/-- A list of values that a reader reads. -/
theorem reads_list {item : Document α} {encode : α → Json} (h : ∀ a, item.Reads (encode a).kinds a) (as : List α) :
    (list item).Reads (kinds (.list (as.map encode))) as := by
  intro size tokens rest kinds
  rw [Json.kinds, kindsOfItems_eq, List.cons_append] at kinds
  obtain ⟨t, ts, rfl, kind, kinds⟩ := List.map_eq_cons_iff.mp kinds
  simp only [List.cons_append, list, kind]
  refine reads_items h as _ true ?_ size ts rest kinds
  have long := congrArg List.length kinds
  have := length_le_itemKinds true (as.map encode)
  simp only [List.length_map, List.length_append, List.length_singleton] at long this ⊢
  omega

/-! ## Records -/

namespace Record

variable {r : Record σ}

/-- The members of an object fill the rest of a record: what has been `seen` before is not filled again, and at the end
nothing is missing. -/
inductive Fills (r : Record σ) : List String → σ → List (String × Json) → σ → Prop
  | done : (∀ f ∈ r.fields, f.absence = .refused → f.name ∈ seen) → Fills r seen s [] s
  | member {k : String} {v : Json} {f : Field σ} {set : σ → σ} : r.fields.find? (·.name = k) = some f → k ∉ seen →
      f.read.Reads v.kinds set → Fills r (k :: seen) (set s) ms s' → Fills r seen s ((k, v) :: ms) s'

theorem reads_key (first : Bool) (k : String) : (key first).Reads (keyKinds first k) (some k) := by
  intro size tokens rest kinds
  cases first with
  | true =>
    obtain ⟨t, rfl, kind⟩ := one_token kinds
    simp only [List.singleton_append, key, kind, key.spelled]
    rfl
  | false =>
    obtain ⟨c, tokens, rfl, comma, kinds⟩ := List.map_eq_cons_iff.mp kinds
    obtain ⟨t, rfl, kind⟩ := one_token kinds
    simp only [List.cons_append, List.nil_append, key, comma, kind, key.spelled]
    rfl

theorem Fills.reads_members {seen : List String} {s s' : σ} {ms : List (String × Json)} (h : Fills r seen s ms s') :
    ∀ (fuel : Nat) (first : Bool), ms.length < fuel →
      (r.members fuel first seen s).Reads (memberKinds first ms ++ [.closeObject]) s' := by
  induction h with
  | @done seen s complete =>
    intro fuel first room size tokens rest kinds
    obtain ⟨fuel, rfl⟩ : ∃ f, fuel = f + 1 := ⟨fuel - 1, by simp only [List.length_nil] at room; omega⟩
    obtain ⟨t, rfl, kind⟩ := one_token kinds
    have missing : r.fields.find? (fun f => f.absence = .refused ∧ ¬ seen.contains f.name) = none := by
      refine List.find?_eq_none.mpr fun f hf => ?_
      simpa using complete f hf
    simp only [members, List.singleton_append, key, kind, bind, Except.bind, missing]
    rfl
  | @member seen s ms s' k v f set field fresh reads _ ih =>
    intro fuel first room size tokens rest kinds
    obtain ⟨fuel, rfl⟩ : ∃ f, fuel = f + 1 := ⟨fuel - 1, by simp only [List.length_cons] at room; omega⟩
    rw [memberKinds, List.append_assoc, List.append_assoc, List.append_assoc] at kinds
    obtain ⟨named, tokens, rfl, key, kinds⟩ := List.map_eq_append_iff.mp kinds
    obtain ⟨colons, tokens, rfl, colon, kinds⟩ := List.map_eq_append_iff.mp kinds
    obtain ⟨value, others, rfl, taken, kinds⟩ := List.map_eq_append_iff.mp kinds
    have key := reads_key first k size named (colons ++ (value ++ (others ++ rest))) key
    have colon := reads_colon size colons (value ++ (others ++ rest)) colon
    have value := reads size value (others ++ rest) taken
    have others := ih fuel false (by simpa using room) size others rest kinds
    simp only [members, List.append_assoc, key, bind, Except.bind, field, fresh, List.contains_eq_mem, decide_false,
      Bool.false_eq_true, if_false, colon, value, others]

/-- A record is read from an object whose members fill it. -/
theorem Fills.reads {ms : List (String × Json)} {s : σ} (h : Fills r [] r.start ms s) :
    r.document.Reads (kinds (.object ms)) s := by
  intro size tokens rest kinds
  rw [Json.kinds, kindsOfMembers_eq, List.cons_append] at kinds
  obtain ⟨t, ts, rfl, kind, kinds⟩ := List.map_eq_cons_iff.mp kinds
  simp only [List.cons_append, document, kind]
  refine h.reads_members _ true ?_ size ts rest kinds
  have long := congrArg List.length kinds
  have := length_le_memberKinds true ms
  simp only [List.length_map, List.length_append, List.length_singleton] at long this ⊢
  omega

end Record

/-! ## Texts -/

/-- A text that writes a value is read as what its tokens make. -/
theorem parse_reads {v : Json} {t : List Char} (h : Written (.element v) t) (reads : d.Reads v.kinds a) :
    d.parse (Text.Utf8.encode t) = .ok a := by
  have whole := reads (Text.Utf8.encode t).length _ [] (tokens_written h)
  rw [List.append_nil] at whole
  simp only [parse, whole]

end Document

end JsonService.Json
