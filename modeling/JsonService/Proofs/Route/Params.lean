import JsonService.Proofs.Route.Reference
import JsonService.Proofs.Text.Symbols

/-!
# What parameters stand for

A search gives the parameters of the route that it finds as bytes of the path. For a route without a catch-all they are
segments: each parameter stands for the whole segment at its place, as it is written in the path.

**Results.**
* `takes_values`: the tokens of a route that matches a path take it in this one way.
* `lookup_params`: so what is looked up comes with the segments of its path, under the names of the route.
* `segments_join`, `eq_of_segments`: a path is known by its segments.
* `overlap_of_matches`: two routes that match one path have no segment that tells them apart.
-/
namespace JsonService.Route

open Text.Utf8 (encode decodeLossy)

variable {α : Type}

/-- The segments of a path that the parameters of a route stand for. -/
def valuesOf : List Segment → List (List Char) → List (List Char)
  | .literal _ :: route, _ :: path => valuesOf route path
  | .parameter :: route, s :: path => s :: valuesOf route path
  | _, _ => []

/-- The names of the parameters of a route, in order. -/
def Attempt.names (a : Attempt α) : List String :=
  (rawNames (routeRaws a.spelling)).map fun name => String.ofList (decodeLossy name)

theorem decodeLossy_encode (cs : List Char) : decodeLossy (encode cs) = cs := by
  rw [decodeLossy, Text.Utf8.symbols_encode, List.map_map]
  exact List.map_id cs

/-! ## Paths and their segments -/

theorem splitOn_slashless_eq {s : List Char} (hs : Slashless s) : Text.splitOn isSlash s = [s] := by
  induction s with
  | nil => rfl
  | cons c s ih =>
    obtain ⟨hc, hs⟩ := List.forall_mem_cons.mp hs
    have other : isSlash c = false := by simpa [isSlash] using hc
    simp only [Text.splitOn, other, ih hs, Bool.false_eq_true, if_false]

theorem splitOn_append_slash {s : List Char} (hs : Slashless s) (cs : List Char) :
    Text.splitOn isSlash (s ++ '/' :: cs) = s :: Text.splitOn isSlash cs := by
  induction s with
  | nil => rfl
  | cons c s ih =>
    obtain ⟨hc, hs⟩ := List.forall_mem_cons.mp hs
    have other : isSlash c = false := by simpa [isSlash] using hc
    simp only [List.cons_append, Text.splitOn, other, ih hs, Bool.false_eq_true, if_false]

/-- A path that is joined of segments has these segments. -/
theorem segments_join {s : List Char} {ss : List (List Char)} (hs : ∀ p ∈ s :: ss, Slashless p) :
    segments (String.ofList (joinSegments (s :: ss))) = s :: ss := by
  rw [segments, String.toList_ofList, joinSegments_cons]
  induction ss generalizing s with
  | nil => rw [tailChars, List.append_nil, splitOn_slashless_eq (List.forall_mem_cons.mp hs).1]
  | cons t ss ih =>
    obtain ⟨first, rest⟩ := List.forall_mem_cons.mp hs
    rw [tailChars, List.cons_append, splitOn_append_slash first, ih rest]

/-- A path is known by its segments. -/
theorem eq_of_segments {path : String} {ss : List (List Char)} (h : segments path = ss) :
    path = String.ofList (joinSegments ss) := by
  rw [← h, segments, joinSegments_splitOn, String.ofList_toList]

/-- Whether some path may be one for both routes. -/
def overlap : List Segment → List Segment → Bool
  | [], [] => true
  | .rest :: _, _ :: _ | _ :: _, .rest :: _ => true
  | .literal a :: route, .literal b :: route' => a = b && overlap route route'
  | _ :: route, _ :: route' => overlap route route'
  | _, _ => false

theorem overlap_of_matches {route route' : List Segment} {path : List (List Char)} (h : Matches route path)
    (h' : Matches route' path) : overlap route route' = true := by
  induction route generalizing route' path with
  | nil =>
    cases path with
    | nil =>
      cases route' with
      | nil => rfl
      | cons q route' => cases q <;> cases h'
    | cons s path => cases h
  | cons p route ih =>
    cases path with
    | nil => cases p <;> cases h
    | cons s path =>
      cases route' with
      | nil => cases h'
      | cons q route' =>
        cases p with
        | rest => cases q <;> rfl
        | literal a =>
          cases q with
          | rest => rfl
          | literal b =>
            obtain ⟨rfl, h⟩ := h
            obtain ⟨rfl, h'⟩ := h'
            simp only [overlap, ih h h', decide_true, Bool.and_self]
          | parameter => exact ih h.2 h'.2
        | parameter =>
          cases q with
          | rest => rfl
          | literal b => exact ih h.2 h'.2
          | parameter => exact ih h.2 h'.2

/-! ## Taking a path -/

theorem takes_values_cons {leaf : Leaf α} {s p : List Char} {ss ps : List (List Char)} (hs : WholeSegment s)
    (hp : Slashless p) (single : Segment.ofSpelling s ≠ .rest)
    (hm : Matches ((s :: ss).map Segment.ofSpelling) (p :: ps))
    (ih : Matches (ss.map Segment.ofSpelling) ps → takes leaf (tailTokens ss) (encode (tailChars ps)) =
      some { leaf, values := (valuesOf (ss.map Segment.ofSpelling) ps).map encode }) :
    takes leaf ((segmentRaws s).map Raw.token ++ tailTokens ss) (encode p ++ encode (tailChars ps)) =
      some { leaf, values := (valuesOf ((s :: ss).map Segment.ofSpelling) (p :: ps)).map encode } := by
  rcases segment_first hs hm with ⟨hof, htokens, hm⟩ | ⟨hof, htokens, hne, hm⟩ | ⟨hof, -⟩
  · rw [htokens, takes_literal, after?_eq_some.mpr rfl, Option.bind_some, ih hm, List.map_cons, hof, valuesOf]
  · have hne : encode p ≠ [] := fun h => hne (Text.Utf8.encode_eq_nil.mp h)
    have first := takeWhile_segment (slash_notMem_encode hp) (tailChars_ends ps)
    rw [htokens, List.singleton_append, takes_parameter leaf _ hne first, ih hm, List.map_cons, hof, valuesOf]
    rfl
  · exact absurd hof single

theorem takes_values_tail {leaf : Leaf α} {ss ps : List (List Char)} (hss : ProperSegments ss)
    (hps : ∀ p ∈ ps, Slashless p) (single : ∀ s ∈ ss, Segment.ofSpelling s ≠ .rest)
    (hm : Matches (ss.map Segment.ofSpelling) ps) : takes leaf (tailTokens ss) (encode (tailChars ps)) =
      some { leaf, values := (valuesOf (ss.map Segment.ofSpelling) ps).map encode } := by
  induction ss generalizing ps with
  | nil =>
    cases ps with
    | nil => rfl
    | cons p ps => cases hm
  | cons s ss ih =>
    obtain ⟨hs, hss⟩ := List.forall_mem_cons.mp hss
    obtain ⟨first, rest⟩ := List.forall_mem_cons.mp single
    cases ps with
    | nil => simp [Matches] at hm
    | cons p ps =>
      obtain ⟨hp, hps⟩ := List.forall_mem_cons.mp hps
      rw [tailTokens_cons, encode_tail, takes, if_pos rfl]
      exact takes_values_cons hs.1 hp first hm fun hm => ih hss hps rest hm

/-- The tokens of a route without a catch-all take a path that it matches in one way: each parameter stands for its
segment. -/
theorem takes_values (leaf : Leaf α) {ss ps : List (List Char)} (hss : ProperSegments ss)
    (hps : ∀ p ∈ ps, Slashless p) (single : ∀ s ∈ ss, Segment.ofSpelling s ≠ .rest)
    (hm : Matches (ss.map Segment.ofSpelling) ps) (hne : ss ≠ []) :
    takes leaf (routeTokens ss) (encode (joinSegments ps)) =
      some { leaf, values := (valuesOf (ss.map Segment.ofSpelling) ps).map encode } := by
  obtain ⟨s, ss, rfl⟩ := List.ne_nil_iff_exists_cons.mp hne
  obtain ⟨hs, hss⟩ := List.forall_mem_cons.mp hss
  obtain ⟨first, rest⟩ := List.forall_mem_cons.mp single
  cases ps with
  | nil => simp [Matches] at hm
  | cons p ps =>
    obtain ⟨hp, hps⟩ := List.forall_mem_cons.mp hps
    rw [routeTokens_cons, joinSegments_cons, Text.Utf8.encode_append]
    exact takes_values_cons hs.1 hp first hm fun hm => takes_values_tail hss hps rest hm

/-! ## Lookups -/

/-- The parameters of a match whose values are texts. -/
theorem params_encode (leaf : Leaf α) (values : List (List Char)) :
    Match.params { leaf, values := values.map encode } =
      (leaf.names.map fun name => String.ofList (decodeLossy name)).zip (values.map String.ofList) := by
  simp only [Match.params, Option.toList_none, List.append_nil]
  rw [List.zip_map_right, List.map_map, List.zip_map]
  refine List.map_congr_left fun kv _ => ?_
  simp only [Function.comp_apply, Prod.map, id_eq, decodeLossy_encode]

/-- What is looked up is what a route for the path leads to; if that has no catch-all, its parameters stand for the
segments of the path at their places. -/
theorem lookup_params {t : Table α} {rs : List (Attempt α)} (h : Holds t rs) {m : Method} {path : String} {v : α}
    {params : List (String × String)} (found : t.lookup m path = .found v params) :
    ∃ r ∈ rs, (r.method = m ∧ Matches r.route (segments path)) ∧ r.value = v ∧
      (.rest ∉ r.route → params = r.names.zip ((valuesOf r.route (segments path)).map String.ofList)) := by
  rw [Table.lookup] at found
  cases hfind : (t.trees m).find (Text.Utf8.bytes path) with
  | none =>
    simp only [hfind] at found
    split at found <;> cases found
  | some result =>
    simp only [hfind] at found
    cases found
    have hbest := Tree.find_best (t.trees m) 0 (Text.Utf8.bytes path) (h.valid m).1
    rw [hfind] at hbest
    obtain ⟨e, he, htakes, -⟩ := hbest
    obtain ⟨r, hr, hmethod, rfl⟩ := (h.routes m e).mp he
    have hmatches : Matches r.route (segments path) :=
      (takes_entry (h.whole r hr) path).mp (by rw [htakes]; rfl)
    refine ⟨r, hr, ⟨hmethod, hmatches⟩, by rw [takes_leaf htakes]; rfl, fun single => ?_⟩
    have hne : r.spelling ≠ [] := by
      obtain ⟨s, ss, hspelling⟩ := spelling_eq r
      exact hspelling ▸ List.cons_ne_nil _ _
    have whole := takes_values r.entry.2 (proper_spelling (h.whole r hr)) (splitOn_slashless path.toList)
      (fun s hs heq => single (heq ▸ List.mem_map_of_mem hs)) hmatches hne
    rw [bytes_path, Attempt.entry] at htakes
    rw [segments] at htakes
    rw [Attempt.entry, htakes, Option.some.injEq] at whole
    rw [whole, params_encode]
    rfl

end JsonService.Route
