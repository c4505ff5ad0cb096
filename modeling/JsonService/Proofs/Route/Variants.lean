import JsonService.Proofs.Route.Filling
import JsonService.Proofs.Route.Readings
import JsonService.Proofs.Route.Refusals
import JsonService.Proofs.Route.Values

/-!
# Spellings of one route

Two routes say the same if their segments do, however many slashes stand around a version and before a path, and
whatever their parameters are called (`Attempt.VariantOf`). A route that was registered keeps its place in the tree of
its method, so every other spelling of it is refused.

**Results.**
* `variantOf_slashes`, `variantOf_spelled`: slashes around a version and before a path make a variant, and so do other
  usual spellings of the segments.
* `occupied_after`: a route that was registered keeps its place, whatever was attempted before and after it.
* `variant_refused`: a variant is refused for a conflict or for the name of a parameter.
* `outcome_own_method`: whether an attempt succeeds depends on the earlier ones for its method alone.
-/
namespace JsonService.Route

open Text.Utf8 (encode)

variable {α β : Type}

/-! ## Variants -/

namespace Attempt

def versionSegments (a : Attempt α) : List (List Char) :=
  Text.splitOn isSlash (Text.stripEnds isSlash a.version.toList)

def pathSegments (a : Attempt α) : List (List Char) := Text.splitOn isSlash (a.path.toList.dropWhile isSlash)

/-- Every segment says some text, or is a parameter or a catch-all as a whole. -/
def WholeParameters (a : Attempt α) : Prop :=
  ∀ s ∈ a.versionSegments ++ a.pathSegments, (Segment.read s).isSome = true

instance (a : Attempt α) : Decidable a.WholeParameters := inferInstanceAs (Decidable (∀ s ∈ _, _))

/-- A spelling of the same route: for the same method, and segment by segment it says the same. -/
structure VariantOf (b : Attempt β) (a : Attempt α) : Prop where
  method : b.method = a.method
  version : b.versionSegments.map Segment.read = a.versionSegments.map Segment.read
  path : b.pathSegments.map Segment.read = a.pathSegments.map Segment.read

end Attempt

theorem stripEnds_append {p : Char → Bool} {before after : List Char} (hbefore : ∀ c ∈ before, p c = true)
    (hafter : ∀ c ∈ after, p c = true) (cs : List Char) :
    Text.stripEnds p (before ++ cs ++ after) = Text.stripEnds p cs := by
  have end_ : ∀ c ∈ after.reverse, p c = true := fun c hc => hafter c (List.mem_reverse.mp hc)
  rw [Text.stripEnds, Text.stripEnds, List.append_assoc, List.dropWhile_append_of_pos hbefore, List.dropWhile_append]
  split
  · next nil =>
    have gone : (after ++ []).dropWhile p = [] := List.dropWhile_append_of_pos hafter
    rw [List.append_nil] at gone
    rw [gone, List.isEmpty_iff.mp nil]
  · rw [List.reverse_append, List.dropWhile_append_of_pos end_]

/-- Slashes around a version and before a path make a variant. -/
theorem variantOf_slashes (a : Attempt α) {before after front : List Char} (hbefore : ∀ c ∈ before, isSlash c = true)
    (hafter : ∀ c ∈ after, isSlash c = true) (hfront : ∀ c ∈ front, isSlash c = true) :
    Attempt.VariantOf { a with
      version := String.ofList (before ++ a.version.toList ++ after)
      path := String.ofList (front ++ a.path.toList) } a where
  method := rfl
  version := by
    rw [Attempt.versionSegments, String.toList_ofList, stripEnds_append hbefore hafter]
    rfl
  path := by
    rw [Attempt.pathSegments, String.toList_ofList, List.dropWhile_append_of_pos hfront]
    rfl

/-- The usual spellings of a segment: a text without braces that is no parameter, or a parameter or a catch-all with its
mark or in braces, whatever it is called. -/
inductive Segment.Spelled : List Char → Segment → Prop
  | literal {text : List Char} : (∀ c ∈ text, c ≠ '\x7b' ∧ c ≠ '\x7d') → text.head? ≠ some ':' →
    text.head? ≠ some '*' → Spelled text (.literal text)
  | parameter {s name : List Char} : s = ':' :: name ∨ s = '\x7b' :: name ++ ['\x7d'] →
    (∀ c ∈ name, c ≠ '\x7b' ∧ c ≠ '\x7d') → name.head? ≠ some '*' → Spelled s .parameter
  | rest {s name : List Char} : s = '*' :: name ∨ s = '\x7b' :: '*' :: name ++ ['\x7d'] →
    (∀ c ∈ name, c ≠ '\x7b' ∧ c ≠ '\x7d') → Spelled s .rest

theorem Segment.Spelled.read_eq {s : List Char} {g : Segment} (h : Spelled s g) : read s = some g := by
  cases h with
  | literal braceless notColon notStar => exact read_literal braceless notColon notStar
  | parameter spelled braceless notStar => exact read_parameter spelled braceless notStar
  | rest spelled braceless => exact read_rest spelled braceless

theorem map_read_of_spelled {ss : List (List Char)} {gs : List Segment} (h : List.Forall₂ Segment.Spelled ss gs) :
    ss.map Segment.read = gs.map some := by
  induction h with
  | nil => rfl
  | cons first _ ih => rw [List.map_cons, List.map_cons, first.read_eq, ih]

/-- A route in usual spellings, and what the segments of its version and of its path say. -/
structure Attempt.Spells (a : Attempt α) (version path : List Segment) : Prop where
  version : List.Forall₂ Segment.Spelled a.versionSegments version
  path : List.Forall₂ Segment.Spelled a.pathSegments path

section
variable {a : Attempt α} {b : Attempt β} {version path : List Segment}

theorem Attempt.Spells.whole (h : a.Spells version path) : a.WholeParameters := by
  intro s hs
  have read : Segment.read s ∈ (version ++ path).map some := by
    rw [List.map_append, ← map_read_of_spelled h.version, ← map_read_of_spelled h.path, ← List.map_append]
    exact List.mem_map_of_mem hs
  obtain ⟨g, -, hg⟩ := List.mem_map.mp read
  rw [← hg]
  rfl

theorem variantOf_spelled (method : b.method = a.method) (hb : b.Spells version path) (ha : a.Spells version path) :
    b.VariantOf a where
  method := method
  version := (map_read_of_spelled hb.version).trans (map_read_of_spelled ha.version).symm
  path := (map_read_of_spelled hb.path).trans (map_read_of_spelled ha.path).symm

end

theorem Attempt.VariantOf.trans {γ : Type} {c : Attempt γ} {b : Attempt β} {a : Attempt α} (h : c.VariantOf b)
    (h' : b.VariantOf a) : c.VariantOf a :=
  ⟨h.method.trans h'.method, h.version.trans h'.version, h.path.trans h'.path⟩

theorem splitOn_append (as bs : List Char) :
    Text.splitOn isSlash (as ++ '/' :: bs) = Text.splitOn isSlash as ++ Text.splitOn isSlash bs := by
  induction as with
  | nil => rfl
  | cons a as ih =>
    rw [List.cons_append, Text.splitOn, Text.splitOn]
    split
    · rw [ih, List.cons_append]
    · rw [ih]
      obtain ⟨s, ss, split⟩ := List.ne_nil_iff_exists_cons.mp (Text.splitOn_ne_nil isSlash as)
      rw [split]
      rfl

theorem splitOn_eq_nil {cs : List Char} (h : Text.splitOn isSlash cs = [[]]) : cs = [] := by
  have joined := joinSegments_splitOn cs
  rw [h] at joined
  exact joined.symm

theorem marked_eq_nil {cs : List Char} (h : marked cs = []) : cs = [] := by
  match cs with
  | [] => rfl
  | [a] => cases h
  | a :: b :: rest =>
    rw [marked] at h
    split at h <;> cases h

theorem Segment.eq_nil_of_read {s : List Char} (h : read s = some (.literal [])) : s = [] := by
  obtain ⟨ps, read, shape⟩ := read_eq_some h
  obtain rfl : ps = [] := List.map_eq_nil_iff.mp shape
  have braced := marked_eq_nil (eq_nil_of_pieces read)
  unfold braceSegment at braced
  split at braced
  · cases braced
  · cases braced
  · exact braced

namespace Attempt

def segments (a : Attempt α) : List (List Char) :=
  if a.versionSegments = [[]] then a.pathSegments
  else if a.pathSegments = [[]] then a.versionSegments
  else a.versionSegments ++ a.pathSegments

theorem splitOn_versioned (a : Attempt α) :
    Text.splitOn isSlash (versioned a.version a.path).toList = [] :: a.segments := by
  have first : ∀ cs, Text.splitOn isSlash ('/' :: cs) = [] :: Text.splitOn isSlash cs := fun _ => rfl
  have empty : ∀ cs : List Char, Text.splitOn isSlash cs = [[]] ↔ cs = [] :=
    fun cs => ⟨splitOn_eq_nil, by rintro rfl; rfl⟩
  simp only [versioned, String.toList_ofList, segments, versionSegments, pathSegments, empty, List.isEmpty_iff]
  split
  · exact first _
  · split
    · exact first _
    · rw [List.cons_append, first, splitOn_append]

theorem pattern_eq (a : Attempt α) : a.pattern = tailChars (a.segments.map braceSegment) := by
  rw [pattern, braced, String.toList_ofList, splitOn_versioned, List.map_cons, joinSegments_cons]
  rfl

theorem segments_ne_nil (a : Attempt α) : a.segments ≠ [] := by
  rw [segments]
  split
  · exact Text.splitOn_ne_nil _ _
  · split
    · exact Text.splitOn_ne_nil _ _
    · exact List.append_ne_nil_of_left_ne_nil (Text.splitOn_ne_nil _ _) _

theorem WholeParameters.segments {a : Attempt α} (h : a.WholeParameters) :
    ∃ gs : List Segment, a.segments.map Segment.read = gs.map some := by
  have whole : ∀ s ∈ a.segments, (Segment.read s).isSome = true := by
    intro s hs
    refine h s ?_
    rw [Attempt.segments] at hs
    rw [List.mem_append]
    split at hs
    · exact .inr hs
    · split at hs
      · exact .inl hs
      · exact List.mem_append.mp hs
  generalize a.segments = ss at whole
  induction ss with
  | nil => exact ⟨[], rfl⟩
  | cons s ss ih =>
    obtain ⟨first, rest⟩ := List.forall_mem_cons.mp whole
    obtain ⟨g, hg⟩ := Option.isSome_iff_exists.mp first
    obtain ⟨gs, hgs⟩ := ih rest
    exact ⟨g :: gs, by rw [List.map_cons, hg, hgs, List.map_cons]⟩

theorem VariantOf.segments {b : Attempt β} {a : Attempt α} (h : b.VariantOf a) :
    b.segments.map Segment.read = a.segments.map Segment.read := by
  -- no version, and no path, is seen from what is read
  have same : ∀ {ss ss' : List (List Char)}, ss.map Segment.read = ss'.map Segment.read → ss = [[]] → ss' = [[]] := by
    rintro _ ss' same rfl
    obtain ⟨s, rest, rfl, hs, hrest⟩ := List.map_eq_cons_iff.mp same.symm
    obtain rfl := Segment.eq_nil_of_read hs
    rw [List.map_eq_nil_iff.mp hrest]
  have version : b.versionSegments = [[]] ↔ a.versionSegments = [[]] := ⟨same h.version, same h.version.symm⟩
  have path : b.pathSegments = [[]] ↔ a.pathSegments = [[]] := ⟨same h.path, same h.path.symm⟩
  simp only [Attempt.segments, version, path]
  split
  · exact h.path
  · split
    · exact h.version
    · rw [List.map_append, List.map_append, h.version, h.path]

/-- What the pattern of a route says if its segments are read. -/
theorem pattern_read {a : Attempt α} {gs : List Segment} (h : a.segments.map Segment.read = gs.map some) :
    ∃ ps, pieces none (marked a.pattern) = some ps ∧ ps.map Piece.shape = tailPieces gs := by
  rw [pattern_eq]
  exact pieces_tail h

end Attempt

/-! ## Places in a table -/

theorem after_snoc (t : Table α) (as : List (Attempt α)) (b : Attempt α) :
    t.after (as ++ [b]) = ((t.after as).attempt b).2 := by
  rw [Table.after, List.foldl_append]
  rfl

section
variable {before : List (Attempt α)} {a : Attempt α} (ok : ((Table.after {} before).attempt a).1 = .ok ())
  {ps : List Piece} (read : pieces none (marked a.pattern) = some ps) (segmented : Segmented ps)
include ok read segmented

/-- What a route that was registered says is the place that it takes. -/
theorem exists_place : (parameterNames ps).length ≤ mostParameters ∧
    ∃ ts, Tells ps ts ∧ ((Table.after {} (before ++ [a])).trees a.method).Occupied ts := by
  have spaced := spaced_of_segmented read segmented
  rw [attempt_outcome, patternBytes_eq] at ok
  rw [after_snoc, attempt_trees, if_pos rfl, patternBytes_eq]
  cases normal : normalize (cells (encode a.pattern)) with
  | error fault =>
    simp only [Tree.add, normal] at ok
    cases ok
  | ok found =>
    obtain ⟨route, names⟩ := found
    obtain ⟨ps', ts, renamed, -⟩ := normalize_pieces spaced normal
    obtain rfl := Option.some.inj (renamed.read.symm.trans read)
    refine ⟨(normalize_count spaced read).2 route names normal, ts, renamed.tells, ?_⟩
    exact add_occupied (exists_source before a.method).1 a.value normal renamed.written (normalize_written normal).2
      (renamed.tells.roomy segmented) ok

/-- **Places are kept.** A route that was registered has its place, whatever was attempted before and after it. -/
theorem occupied_after (ne : ps ≠ []) (more : List (Attempt α)) : (parameterNames ps).length ≤ mostParameters ∧
    ∃ ts, Tells ps ts ∧ ((Table.after {} (before ++ a :: more)).trees a.method).Occupied ts := by
  induction more using List.reverseRecOn with
  | nil => exact exists_place ok read segmented
  | append_singleton more b ih =>
    obtain ⟨most, ts, tells, occupied⟩ := ih
    refine ⟨most, ts, tells, ?_⟩
    have last : before ++ a :: (more ++ [b]) = (before ++ a :: more) ++ [b] := by simp
    rw [last, after_snoc, attempt_trees]
    split
    · next same =>
      rw [← same]
      exact add_keeps (exists_source _ a.method).1 b.value (fun nil => ne (tells.eq_nil nil)) occupied
    · exact occupied

end

/-- **Variants are refused.** A route that was registered is refused in every other spelling, whatever was attempted
before and after it: for a conflict, or for the name of a parameter. -/
theorem variant_refused {before : List (Attempt α)} {a : Attempt α}
    (ok : ((Table.after {} before).attempt a).1 = .ok ()) (whole : a.WholeParameters) (more : List (Attempt α))
    {b : Attempt α} (variant : b.VariantOf a) : ∃ fault,
      ((Table.after {} (before ++ a :: more)).attempt b).1 = .error fault ∧ fault ≠ .tooMany ∧
        b.Refused (.error fault) := by
  obtain ⟨gs, hgs⟩ := whole.segments
  obtain ⟨ps, read, shape⟩ := Attempt.pattern_read hgs
  obtain ⟨ps', read', shape'⟩ := Attempt.pattern_read (variant.segments.trans hgs)
  have segmented : Segmented ps := segmented_shape.mp (shape ▸ segmented_tail gs)
  have segmented' : Segmented ps' := segmented_shape.mp (shape' ▸ segmented_tail gs)
  have spaced' := spaced_of_segmented read' segmented'
  have ne : ps ≠ [] := by
    rintro rfl
    cases gs with
    | nil => exact a.segments_ne_nil (List.map_eq_nil_iff.mp hgs)
    | cons g gs => cases shape
  obtain ⟨most, ts, tells, occupied⟩ := occupied_after ok read segmented ne more
  have sane := (exists_source (before ++ a :: more) a.method).1
  rw [attempt_outcome, patternBytes_eq, variant.method]
  cases normal : normalize (cells (encode b.pattern)) with
  | error fault =>
    refine ⟨fault, by simp only [Tree.add, normal], ?_, .inr ⟨fault, by rw [patternBytes_eq, normal]⟩⟩
    rintro rfl
    have many := (normalize_count spaced' read').1 normal
    rw [← parameterNames_shape ps', shape', ← shape, parameterNames_shape] at many
    omega
  | ok found =>
    obtain ⟨route, names⟩ := found
    obtain ⟨ps'', ts', renamed, -⟩ := normalize_pieces spaced' normal
    obtain rfl := Option.some.inj (renamed.read.symm.trans read')
    have same : ts'.map Token.shape = ts.map Token.shape := by rw [renamed.tells.shape, tells.shape, shape', shape]
    obtain ⟨words, refused⟩ := add_refused sane b.value normal renamed.written (normalize_written normal).2
      (renamed.tells.roomy segmented') same (fun nil => ne (tells.eq_nil nil)) occupied
    exact ⟨.conflict words, refused, by simp, .inl ⟨words, rfl⟩⟩

/-! ## Attempts for one method -/

theorem after_filter (as : List (Attempt α)) (m : Method) {t t' : Table α} (same : t.trees m = t'.trees m) :
    (t.after as).trees m = (t'.after (as.filter (·.method = m))).trees m := by
  induction as generalizing t t' with
  | nil => exact same
  | cons a as ih =>
    by_cases hm : a.method = m
    · rw [List.filter_cons_of_pos (by simpa using hm), Table.after_cons, Table.after_cons]
      refine ih ?_
      rw [attempt_trees, attempt_trees, if_pos hm.symm, if_pos hm.symm, hm, same]
    · rw [List.filter_cons_of_neg (by simpa using hm), Table.after_cons]
      refine ih ?_
      rw [attempt_trees, if_neg (Ne.symm hm), same]

/-- An attempt without what its route leads to. -/
def Attempt.bare (a : Attempt α) : Attempt Unit := { a with value := () }

theorem attempt_bare (t : Table α) (a : Attempt α) : (t.map fun _ => ()).attempt a.bare =
    ((t.attempt a).1, (t.attempt a).2.map fun _ => ()) :=
  Table.insert_map (fun _ => ()) t a.method _ a.value

theorem after_bare (as : List (Attempt α)) (t : Table α) :
    (t.map fun _ => ()).after (as.map Attempt.bare) = (t.after as).map fun _ => () := by
  induction as generalizing t with
  | nil => rfl
  | cons a as ih => rw [List.map_cons, Table.after_cons, Table.after_cons, attempt_bare, ih]

/-- What an attempt comes to after those alone that are for its method, whatever they lead to. -/
theorem outcome_bare (as : List (Attempt α)) (a : Attempt α) : ((Table.after {} as).attempt a).1 =
    ((Table.after {} ((as.filter (·.method = a.method)).map Attempt.bare)).attempt a.bare).1 := by
  have own := after_filter as a.method (t := {}) rfl
  have bare := after_bare (as.filter (·.method = a.method)) {}
  rw [Table.map_empty] at bare
  rw [bare, attempt_bare, attempt_outcome, attempt_outcome, own]

/-- **Outcomes of one method.** What an attempt comes to depends on the earlier attempts for its method alone, on how
their routes are spelled and in which order, and not on what any of them leads to. -/
theorem outcome_own_method {as : List (Attempt α)} {as' : List (Attempt β)} {a : Attempt α} {a' : Attempt β}
    (same : a.bare = a'.bare) (own : (as.filter (·.method = a.method)).map Attempt.bare =
      (as'.filter (·.method = a'.method)).map Attempt.bare) :
    ((Table.after {} as).attempt a).1 = ((Table.after {} as').attempt a').1 := by
  rw [outcome_bare as a, outcome_bare as' a', own, same]

end JsonService.Route
