import JsonService.Decode
import JsonService.Proofs.Json.Reading

/-!
# The meaning of a body

A body is decoded as if each object had its members in one fixed order, each key once and no null member.
Values that differ in nothing else have the same meaning, and so have all the texts that write them.

**Results.**
* `meaning_object`, `meaning_list`: what decoding keeps of an object and of a list.
* `meaning_changes`: changes of members that keep the meaning of each object keep it at every depth.
* `Payload.decode_meaning`.
-/
namespace JsonService

namespace Json

/-! ## Changes of members -/

/-- The members of some objects within a value are changed by a rule, at any depth and any number of times. -/
inductive Changes (rule : List (String × Json) → List (String × Json) → Prop) : Json → Json → Prop
  | rule : rule ms ms' → Changes rule (.object ms) (.object ms')
  | refl (v : Json) : Changes rule v v
  | trans : Changes rule u v → Changes rule v w → Changes rule u w
  | item (before after : List Json) : Changes rule v w →
      Changes rule (.list (before ++ v :: after)) (.list (before ++ w :: after))
  | member (before after : List (String × Json)) : Changes rule v w →
      Changes rule (.object (before ++ (key, v) :: after)) (.object (before ++ (key, w) :: after))

/-- A member goes whose key comes again. -/
inductive Overwritten : List (String × Json) → List (String × Json) → Prop
  | mk (before after : List (String × Json)) : key ∈ after.map (·.1) →
      Overwritten (before ++ (key, v) :: after) (before ++ after)

/-- Two members change places, or a null member comes or goes. -/
inductive Rearranged : List (String × Json) → List (String × Json) → Prop
  | swap (before after : List (String × Json)) : a.1 ≠ b.1 →
      Rearranged (before ++ a :: b :: after) (before ++ b :: a :: after)
  | addNull (before after : List (String × Json)) : key ∉ (before ++ after).map (·.1) →
      Rearranged (before ++ after) (before ++ (key, .null) :: after)
  | dropNull (before after : List (String × Json)) : key ∉ (before ++ after).map (·.1) →
      Rearranged (before ++ (key, .null) :: after) (before ++ after)

/-- A body writes a value: it is a text whose document has the value's members, and perhaps others before them
that they overwrite. The document is nested no deeper than the reader allows. -/
def Writes (body : List UInt8) (v : Json) : Prop :=
  ∃ d t, Written (.element d) t ∧ d.depth < Reader.depthLimit ∧ Changes Overwritten d v ∧ body = Text.Utf8.encode t

/-! ## Meaning -/

/-- What decoding keeps of a value. -/
def meaning (v : Json) : Json := v.canonical.stripNulls

theorem stripItems_eq (vs : List Json) : stripItems vs = vs.map stripNulls := by
  induction vs with
  | nil => rfl
  | cons v vs ih => rw [stripItems, ih, List.map_cons]

theorem isNull_stripNulls (v : Json) : v.stripNulls.isNull = v.isNull := by cases v <;> rfl

theorem stripMembers_eq (ms : List (String × Json)) :
    stripMembers ms = (ms.map fun m => (m.1, m.2.stripNulls)).filter fun m => !m.2.isNull := by
  induction ms with
  | nil => rfl
  | cons m ms ih => cases h : m.2.isNull <;> simp [stripMembers, ih, isNull_stripNulls, h]

theorem meaning_list (vs : List Json) : meaning (.list vs) = .list (vs.map meaning) := by
  rw [meaning, canonical, stripNulls, stripItems_eq, canonicalItems_eq, List.map_map]
  rfl

/-- The members of an object, each key with its last value. -/
def gathered (ms : List (String × Json)) : List (String × Json) :=
  Entries.gather (ms.map fun m => (m.1, meaning m.2))

theorem ascending_gathered (ms : List (String × Json)) : Entries.Ascending (gathered ms) := Entries.ascending_gather _

theorem meaning_object (ms : List (String × Json)) :
    meaning (.object ms) = .object ((gathered ms).filter fun m => !m.2.isNull) := by
  rw [meaning, canonical, stripNulls, stripMembers_eq, Entries.gather_map, canonicalMembers_eq, List.map_map]
  rfl

/-- Changes that keep the meaning of each object keep it at every depth. -/
theorem meaning_changes {rule : List (String × Json) → List (String × Json) → Prop}
    (keeps : ∀ ms ms', rule ms ms' → meaning (.object ms) = meaning (.object ms')) {v w : Json}
    (h : Changes rule v w) : v.meaning = w.meaning := by
  induction h with
  | rule h => exact keeps _ _ h
  | refl => rfl
  | trans _ _ ih ih' => exact ih.trans ih'
  | item _ _ _ ih => simp only [meaning_list, List.map_append, List.map_cons, ih]
  | member _ _ _ ih => simp only [meaning_object, gathered, List.map_append, List.map_cons, ih]

/-! ## The rules keep the meaning -/

def last? (k : String) (ms : List (String × Json)) : Option Json := Entries.get? k ms.reverse

theorem get?_gathered (k : String) (ms : List (String × Json)) :
    Entries.get? k (gathered ms) = (last? k ms).map meaning := by
  rw [gathered, Entries.get?_gather, ← List.map_reverse, last?]
  induction ms.reverse with
  | nil => rfl
  | cons m ms ih =>
    simp only [List.map_cons, Entries.get?]
    split
    · rfl
    · exact ih

theorem last?_append (k : String) (ms ms' : List (String × Json)) :
    last? k (ms ++ ms') = (last? k ms').or (last? k ms) := by
  rw [last?, List.reverse_append, Entries.get?_append]
  rfl

theorem last?_cons (k : String) (m : String × Json) (ms : List (String × Json)) :
    last? k (m :: ms) = (last? k ms).or (if m.1 = k then some m.2 else none) := by
  rw [← List.singleton_append, last?_append]
  rfl

theorem last?_eq_none {k : String} {ms : List (String × Json)} : last? k ms = none ↔ k ∉ ms.map (·.1) := by
  rw [last?, Entries.get?_eq_none, List.map_reverse, List.mem_reverse]

theorem isNull_meaning (v : Json) : v.meaning.isNull = v.isNull := by cases v <;> rfl

/-- The last value of a key that is not null matters, and nothing else. -/
theorem meaning_congr {ms ms' : List (String × Json)}
    (same : ∀ k, (last? k ms).filter (fun v => !v.isNull) = (last? k ms').filter fun v => !v.isNull) :
    meaning (.object ms) = meaning (.object ms') := by
  have kept : ∀ (k : String) (ms : List (String × Json)),
      Entries.get? k ((gathered ms).filter fun m => !m.2.isNull) =
        ((last? k ms).filter fun v => !v.isNull).map meaning := by
    intro k ms
    have filtered := (ascending_gathered ms).get?_filter (fun v : Json => !v.isNull) k
    rw [filtered, get?_gathered, Option.filter_map]
    simp only [Function.comp_def, isNull_meaning]
  rw [meaning_object, meaning_object]
  refine congrArg Json.object (Entries.Ascending.ext ?_ ?_ fun k => ?_)
  · exact (ascending_gathered ms).filter _
  · exact (ascending_gathered ms').filter _
  · rw [kept, kept, same k]

theorem meaning_overwritten (ms ms' : List (String × Json)) (h : Overwritten ms ms') :
    meaning (.object ms) = meaning (.object ms') := by
  cases h with
  | @mk key v before after again =>
    refine meaning_congr fun k => ?_
    simp only [last?_append, last?_cons]
    by_cases hk : key = k
    · subst hk
      obtain ⟨w, hw⟩ := Option.ne_none_iff_exists'.mp (mt last?_eq_none.mp (not_not_intro again))
      simp only [hw, Option.some_or]
    · rw [if_neg hk, Option.or_none]

theorem meaning_null {key : String} {before after : List (String × Json)}
    (alone : key ∉ (before ++ after).map (·.1)) :
    meaning (.object (before ++ (key, .null) :: after)) = meaning (.object (before ++ after)) := by
  refine meaning_congr fun k => ?_
  simp only [last?_append, last?_cons]
  by_cases hk : key = k
  · subst hk
    simp only [List.map_append, List.mem_append, not_or] at alone
    rw [last?_eq_none.mpr alone.1, last?_eq_none.mpr alone.2, if_pos rfl]
    rfl
  · rw [if_neg hk, Option.or_none]

theorem meaning_rearranged (ms ms' : List (String × Json)) (h : Rearranged ms ms') :
    meaning (.object ms) = meaning (.object ms') := by
  cases h with
  | @swap a b before after different =>
    refine meaning_congr fun k => ?_
    simp only [last?_append, last?_cons, Option.or_assoc]
    by_cases ha : a.1 = k
    · have hb : b.1 ≠ k := fun hb => different (ha.trans hb.symm)
      rw [if_neg hb, Option.none_or, Option.none_or]
    · rw [if_neg ha, Option.none_or, Option.none_or]
  | addNull before after alone => exact (meaning_null alone).symm
  | dropNull before after alone => exact meaning_null alone

/-- A body is read as a value with the meaning of the value that it writes. -/
theorem parse_writes {body : List UInt8} {v : Json} (h : Writes body v) :
    ∃ u, parse body = .ok u ∧ u.stripNulls = v.meaning := by
  obtain ⟨d, t, written, shallow, changes, rfl⟩ := h
  exact ⟨d.canonical, parse_written written shallow, meaning_changes meaning_overwritten changes⟩

end Json

/-- Two bodies whose values differ in the order of members and in null members only are read alike up to null
members, and decode to the same value, the same failing fields or the same message. -/
theorem Payload.decode_meaning {α : Type} (p : Payload α) {v v' : Json} {body body' : List UInt8}
    (rearranged : Json.Changes Json.Rearranged v v') (writes : Json.Writes body v) (writes' : Json.Writes body' v') :
    (∃ u u', Json.parse body = .ok u ∧ Json.parse body' = .ok u' ∧ u.stripNulls = u'.stripNulls) ∧
      p.decode body = p.decode body' := by
  have same : v.meaning = v'.meaning := Json.meaning_changes Json.meaning_rearranged rearranged
  obtain ⟨u, parsed, hu⟩ := Json.parse_writes writes
  obtain ⟨u', parsed', hu'⟩ := Json.parse_writes writes'
  have stripped : u.stripNulls = u'.stripNulls := hu.trans (same.trans hu'.symm)
  refine ⟨⟨u, u', parsed, parsed', stripped⟩, ?_⟩
  simp only [Payload.decode, parsed, parsed', stripped]

section
open Json (Written Spells Blanks Changes Writes)

private def terseBody : List UInt8 := Text.Utf8.bytes "\x7b\"a\":true,\"b\":[null,\x7b\"c\":null\x7d],\"a\":null\x7d"

private def spacedBody : List UInt8 := Text.Utf8.bytes "\x7b \"\\u0062\" : [ null , \x7b\x7d ] \x7d"

private theorem writes_terse :
    Writes terseBody (.object [("b", .list [.null, .object [("c", .null)]]), ("a", .null)]) := by
  have nothing : Blanks [] := by simp [Blanks]
  have letter : ∀ c ∈ ['a', 'b', 'c'], Spells [c] [c] := by
    intro c hc
    simp only [List.mem_cons, List.not_mem_nil, or_false] at hc
    rcases hc with rfl | rfl | rfl <;> exact .plain (by decide) (by decide) (by decide) .nil
  have bare : ∀ {v t}, Written (.value v) t → Written (.element v) t := fun h => by
    simpa using Written.element nothing h nothing
  have named : ∀ {c v t}, c ∈ ['a', 'b', 'c'] → Written (.value v) t →
      Written (.member (String.ofList [c]) v) ('"' :: c :: '"' :: ':' :: t) := fun hc h =>
    Written.member nothing (letter _ hc) nothing (bare h)
  have inner := Written.object (.lastMember (named (c := 'c') (by simp) .null))
  have items := Written.list (.elements (bare .null) (.lastElement (bare inner)))
  have whole := Written.object (.members (named (c := 'a') (by simp) .true)
    (.members (named (c := 'b') (by simp) items) (.lastMember (named (c := 'a') (by simp) .null))))
  refine ⟨_, _, bare whole, by decide, ?_, rfl⟩
  exact .rule (.mk [] _ (by decide))

private theorem writes_spaced : Writes spacedBody (.object [("b", .list [.null, .object []])]) := by
  have blank : Blanks [' '] := by simp [Blanks, Json.Token.isSpace]
  have padded : ∀ {v t}, Written (.value v) t → Written (.element v) (' ' :: t ++ [' ']) := fun h =>
    .element blank h blank
  have key : Spells "\\u0062".toList ['b'] := @Spells.code '0' '0' '6' '2' 0x62 [] [] rfl rfl rfl .nil
  have inner := Written.emptyObject (b := []) (by simp [Blanks])
  have items := Written.list (.elements (padded .null) (.lastElement (padded inner)))
  have whole := Written.object (.lastMember (.member blank key blank (padded items)))
  have nothing : Blanks [] := by simp [Blanks]
  exact ⟨_, _, .element nothing whole nothing, by decide, .refl _, rfl⟩

/-- Of a key that comes twice the last value counts, and being null it leaves no member; the null in the list
stays. -/
theorem Payload.decode_meaning_repeated :
    (Changes Json.Rearranged (.object [("b", .list [.null, .object [("c", .null)]]), ("a", .null)])
        (.object [("b", .list [.null, .object []])]) ∧
      Writes terseBody (.object [("b", .list [.null, .object [("c", .null)]]), ("a", .null)]) ∧
      Writes spacedBody (.object [("b", .list [.null, .object []])])) ∧
    (⟨Json.Shape.any, fun _ => []⟩ : Payload Json).decode terseBody =
      (⟨Json.Shape.any, fun _ => []⟩ : Payload Json).decode spacedBody := by
  have noA : Json.Rearranged [("b", .list [.null, .object [("c", .null)]]), ("a", .null)]
      [("b", .list [.null, .object [("c", .null)]])] := .dropNull [("b", _)] [] (by simp)
  have noC : Json.Rearranged [("c", .null)] [] := .dropNull [] [] (by simp)
  have rearranged : Changes Json.Rearranged (.object [("b", .list [.null, .object [("c", .null)]]), ("a", .null)])
      (.object [("b", .list [.null, .object []])]) :=
    .trans (.rule noA) (.member [] [] (.item [.null] [] (.rule noC)))
  exact ⟨⟨rearranged, writes_terse, writes_spaced⟩,
    (Payload.decode_meaning _ rearranged writes_terse writes_spaced).2⟩

end

end JsonService
