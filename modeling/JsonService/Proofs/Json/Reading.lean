import JsonService.Json.Reader
import JsonService.Proofs.Entries
import JsonService.Proofs.Json.Scanning

/-!
# What a written document is read as

A text that the grammar accepts, nested less deep than the reader allows, is read as the canonical form of
the document that it writes: each object has its members in ascending order of the keys, and of a repeated
key only the last value.

**Results.**
* `Json.induct`: induction over values.
* `takes_value`: the machine takes the tokens of a document wherever a value may come.
* `tokens_written`, `parse_written`.
-/
namespace JsonService.Json

open Token (Kind)

/-! ## Induction over values -/

/-- What holds of a list or object whenever it holds of what is in it, and of all else, holds of every value. -/
theorem induct {P : Json → Prop} (null : P .null) (bool : ∀ b, P (.bool b)) (number : ∀ n, P (.number n))
    (text : ∀ s, P (.text s)) (list : ∀ vs, (∀ v ∈ vs, P v) → P (.list vs))
    (object : ∀ ms, (∀ m ∈ ms, P m.2) → P (.object ms)) (v : Json) : P v :=
  @Json.rec P (fun vs => ∀ v ∈ vs, P v) (fun ms => ∀ m ∈ ms, P m.2) (fun m => P m.2)
    null bool number text list object
    (fun _ h => nomatch h) (fun _ _ hv hvs => List.forall_mem_cons.mpr ⟨hv, hvs⟩)
    (fun _ h => nomatch h) (fun _ _ hm hms => List.forall_mem_cons.mpr ⟨hm, hms⟩) (fun _ _ hv => hv) v

/-! ## Canonical forms -/

mutual

/-- The value with each object's members in ascending order of their keys, each key with its last value. -/
def canonical : Json → Json
  | .list vs => .list (canonicalItems vs)
  | .object ms => .object (Entries.gather (canonicalMembers ms))
  | v => v

def canonicalItems : List Json → List Json
  | [] => []
  | v :: vs => canonical v :: canonicalItems vs

def canonicalMembers : List (String × Json) → List (String × Json)
  | [] => []
  | (k, v) :: ms => (k, canonical v) :: canonicalMembers ms

end

theorem canonicalItems_eq (vs : List Json) : canonicalItems vs = vs.map canonical := by
  induction vs with
  | nil => rfl
  | cons v vs ih => rw [canonicalItems, ih, List.map_cons]

theorem canonicalMembers_eq (ms : List (String × Json)) :
    canonicalMembers ms = ms.map fun m => (m.1, canonical m.2) := by
  induction ms with
  | nil => rfl
  | cons m ms ih => rw [canonicalMembers, ih, List.map_cons]

/-! ## Taking tokens -/

/-- Tokens of these kinds take the machine from one state to another, wherever they stand in the text. -/
def Takes (r : Reader) (kinds : List Kind) (r' : Reader) : Prop :=
  ∀ tokens : List Token, tokens.map (·.kind) = kinds → tokens.foldlM Reader.step r = .ok r'

namespace Takes

theorem append {r r' r'' : Reader} {ks ks' : List Kind} (h : Takes r ks r') (h' : Takes r' ks' r'') :
    Takes r (ks ++ ks') r'' := by
  intro tokens htokens
  obtain ⟨ts, ts', rfl, hts, hts'⟩ := List.map_eq_append_iff.mp htokens
  rw [List.foldlM_append, h ts hts]
  exact h' ts' hts'

theorem token {r r' : Reader} {k : Kind} (h : ∀ first last, r.step ⟨k, first, last⟩ = .ok r') :
    Takes r [k] r' := by
  intro tokens htokens
  obtain ⟨⟨_, first, last⟩, ts, rfl, rfl, hts⟩ := List.map_eq_cons_iff.mp htokens
  obtain rfl := List.map_eq_nil_iff.mp hts
  rw [List.foldlM_cons, h first last]
  rfl

theorem cons {r r' r'' : Reader} {k : Kind} {ks : List Kind} (h : ∀ first last, r.step ⟨k, first, last⟩ = .ok r')
    (h' : Takes r' ks r'') : Takes r (k :: ks) r'' := (token h).append h'

end Takes

open Reader

def Awaiting.TakesValue (a : Awaiting) : Prop := a = .value ∨ a = .firstItem ∨ a = .item

def Awaiting.TakesKey (a : Awaiting) : Prop := a = .firstKey ∨ a = .key

theorem step_value {a : Awaiting} (h : a.TakesValue) (frames : List Frame) {t : Token} (ht : t.kind ≠ .closeList) :
    step ⟨frames, a⟩ t = takeValue frames t := by
  rcases h with rfl | rfl | rfl
  · rfl
  · simp only [step]
  · simp only [step]

theorem step_key {a : Awaiting} (h : a.TakesKey) (frames : List Frame) {t : Token} (ht : t.kind ≠ .closeObject) :
    step ⟨frames, a⟩ t = takeKey frames t := by
  rcases h with rfl | rfl <;> simp only [step]

theorem enter_room {frames : List Frame} (h : frames.length + 1 < depthLimit) (t : Token) (frame : Frame)
    (a : Awaiting) : enter t frames frame a = .ok ⟨frame :: frames, a⟩ := if_pos h

/-- The machine takes the tokens of `v` wherever a value may come and there is room for its depth. -/
def Readable (v : Json) : Prop := ∀ (frames : List Frame) (a : Awaiting), a.TakesValue →
  frames.length + v.depth < depthLimit → Takes ⟨frames, a⟩ v.kinds (give v.canonical frames)

theorem takes_items {vs : List Json} (hne : vs ≠ []) (h : ∀ v ∈ vs, Readable v) (before : List Json)
    (frames : List Frame) {a : Awaiting} (ha : a.TakesValue)
    (room : frames.length + 1 + depthOfItems vs < depthLimit) :
    Takes ⟨.list before :: frames, a⟩ (kindsOfItems vs)
      ⟨.list ((canonicalItems vs).reverse ++ before) :: frames, .comma⟩ := by
  induction vs generalizing before a with
  | nil => contradiction
  | cons v vs ih =>
    have hv := h v (List.mem_cons_self ..) (.list before :: frames) a ha
      (by simp only [depthOfItems, List.length_cons] at room ⊢; omega)
    cases vs with
    | nil => exact hv
    | cons w vs =>
      have ih := ih (by simp) (fun v hv => h v (List.mem_cons_of_mem _ hv)) (v.canonical :: before) (.inr (.inr rfl))
        (by rw [depthOfItems] at room; omega)
      have := hv.append (.cons (k := .comma) (fun _ _ => rfl) ih)
      simpa only [canonicalItems, kindsOfItems, List.reverse_cons, List.append_assoc, List.cons_append,
        List.nil_append] using this

theorem takes_members {ms : List (String × Json)} (hne : ms ≠ []) (h : ∀ m ∈ ms, Readable m.2)
    (before : List (String × Json)) (frames : List Frame) {a : Awaiting} (ha : a.TakesKey)
    (room : frames.length + 1 + depthOfMembers ms < depthLimit) :
    Takes ⟨.object before :: frames, a⟩ (kindsOfMembers ms)
      ⟨.object (Entries.gatherInto before (canonicalMembers ms)) :: frames, .comma⟩ := by
  induction ms generalizing before a with
  | nil => contradiction
  | cons m ms ih =>
    obtain ⟨key, v⟩ := m
    have hv := h (key, v) (List.mem_cons_self ..) (.member before key :: frames) .value (.inl rfl)
      (by simp only [depthOfMembers, List.length_cons] at room ⊢; omega)
    have hm : Takes ⟨.object before :: frames, a⟩ (.text (.ok key) :: .colon :: v.kinds)
        ⟨.object (Entries.insert key v.canonical before) :: frames, .comma⟩ :=
      .cons (fun _ _ => step_key ha _ (by simp)) (.cons (fun _ _ => rfl) hv)
    cases ms with
    | nil => exact hm
    | cons m ms =>
      have ih := ih (by simp) (fun m hm => h m (List.mem_cons_of_mem _ hm)) (Entries.insert key v.canonical before)
        (.inr rfl) (by rw [depthOfMembers] at room; omega)
      exact hm.append (.cons (k := .comma) (fun _ _ => rfl) ih)

theorem takes_value (v : Json) : Readable v := by
  induction v using induct with
  | null => exact fun frames a ha _ => .token fun _ _ => step_value ha _ (by simp)
  | bool b => exact fun frames a ha _ => .token fun _ _ => step_value ha _ (by simp)
  | number n => exact fun frames a ha _ => .token fun _ _ => step_value ha _ (by simp)
  | text s => exact fun frames a ha _ => .token fun _ _ => step_value ha _ (by simp)
  | list vs ih =>
    intro frames a ha room
    rw [depth] at room
    have enters : ∀ first last, step ⟨frames, a⟩ ⟨.openList, first, last⟩ = .ok ⟨.list [] :: frames, .firstItem⟩ := by
      intro first last
      rw [step_value ha _ (by simp)]
      exact enter_room (by omega) ..
    cases vs with
    | nil => exact .cons enters (.token fun _ _ => rfl)
    | cons v vs =>
      have items := takes_items (by simp) ih [] frames (.inr (.inl rfl)) (by omega)
      have closes : Takes ⟨.list ((canonicalItems (v :: vs)).reverse ++ []) :: frames, .comma⟩ [.closeList]
          (give (canonical (.list (v :: vs))) frames) := by
        refine .token fun _ _ => ?_
        simp only [step, takeComma, canonical, List.append_nil, List.reverse_reverse]
      exact (Takes.cons enters items).append closes
  | object ms ih =>
    intro frames a ha room
    rw [depth] at room
    have enters : ∀ first last,
        step ⟨frames, a⟩ ⟨.openObject, first, last⟩ = .ok ⟨.object [] :: frames, .firstKey⟩ := by
      intro first last
      rw [step_value ha _ (by simp)]
      exact enter_room (by omega) ..
    cases ms with
    | nil => exact .cons enters (.token fun _ _ => rfl)
    | cons m ms =>
      have members := takes_members (by simp) ih [] frames (.inl rfl) (by omega)
      exact (Takes.cons enters members).append (.token fun _ _ => rfl)

/-! ## Texts -/

theorem tokens_written {d : Json} {t : List Char} (h : Written (.element d) t) :
    (tokens (Text.Utf8.encode t)).map (·.kind) = d.kinds := by
  have yields : Yields t [] d.kinds := yields_written h (by simp [Delimited])
  obtain ⟨ts, fuel, place, hts, _, scanned⟩ := yields t.length 0 (by simp)
  have tokens : tokens (Text.Utf8.encode t) = ts := by
    rw [List.append_nil] at scanned
    simp only [Json.tokens, Text.Utf8.symbols_encode, List.length_map, scanned, List.map_nil]
    cases fuel <;> simp [Token.scan]
  rw [tokens, hts]

/-- Characters that write a document are read as its canonical form. -/
theorem parse_written {d : Json} {t : List Char} (h : Written (.element d) t) (shallow : d.depth < depthLimit) :
    parse (Text.Utf8.encode t) = .ok d.canonical := by
  have taken : (tokens (Text.Utf8.encode t)).foldlM step {} = .ok (give d.canonical []) :=
    takes_value d [] .value (.inl rfl) (by simpa using shallow) _ (tokens_written h)
  simp only [parse, read, taken]
  rfl

end JsonService.Json
