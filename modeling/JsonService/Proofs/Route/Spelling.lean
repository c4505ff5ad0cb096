import JsonService.Proofs.Route.Variants
import JsonService.Proofs.Text.Runs
import Mathlib.Data.List.Forall2

/-!
# One form for every spelling of a route

A version and a path are joined with one slash at the start and one between them, however many stood around the version
and before the path. Then the path is taken segment by segment: a parameter behind a colon and a catch-all behind a star
get braces (`InBraces`), every other segment stays. Both steps leave alone what they have made.

**Results.**
* `versioned_toList`, `versioned_versioned`: the characters of a path under its version.
* `segments_braced`, `inBraces_iff`, `braced_inj`: the segments of a path with every parameter in braces.
* `normal_form`: so all spellings of a route have one form, and only these have it.
-/
namespace JsonService.Route

/-! ## Versions and paths -/

theorem eq_replicate_slash {cs : List Char} (h : ∀ c ∈ cs, isSlash c = true) : cs = List.replicate cs.length '/' :=
  List.eq_replicate_of_mem fun c hc => of_decide_eq_true (h c hc)

/-- The slash between a version and a path, if there are both. -/
def divider (core path : List Char) : List Char := if core = [] ∨ path = [] then [] else ['/']

/-- A version and a path, each with slashes that do not count, and the two joined. -/
inductive Joined : List Char → List Char → List Char → Prop
  | intro (before after front : Nat) {core path : List Char} (first : core.head? ≠ some '/')
      (last : core.getLast? ≠ some '/') (start : path.head? ≠ some '/') :
    Joined (List.replicate before '/' ++ core ++ List.replicate after '/') (List.replicate front '/' ++ path)
      ('/' :: (core ++ divider core path ++ path))

theorem versioned_toList (v p : String) : (versioned v p).toList = '/' :: (Text.stripEnds isSlash v.toList ++
    divider (Text.stripEnds isSlash v.toList) (p.toList.dropWhile isSlash) ++ p.toList.dropWhile isSlash) := by
  rw [versioned, String.toList_ofList, divider]
  generalize Text.stripEnds isSlash v.toList = core
  generalize p.toList.dropWhile isSlash = path
  cases core <;> cases path <;> simp

theorem joined_versioned (v p : String) : Joined v.toList p.toList (versioned v p).toList := by
  have slash : isSlash '/' = true := rfl
  obtain ⟨before, after, split, hbefore, hafter, first, last⟩ := Text.stripEnds_ends isSlash v.toList
  have front : p.toList = p.toList.takeWhile isSlash ++ p.toList.dropWhile isSlash :=
    List.takeWhile_append_dropWhile.symm
  have start : ∀ c ∈ (p.toList.dropWhile isSlash).head?, isSlash c = false := fun c hc => by
    simpa [Option.mem_def.mp hc] using List.head?_dropWhile_not isSlash p.toList
  rw [eq_replicate_slash hbefore, eq_replicate_slash hafter] at split
  rw [eq_replicate_slash fun c hc => List.mem_takeWhile_imp hc] at front
  rw [versioned_toList]
  generalize Text.stripEnds isSlash v.toList = core at split first last ⊢
  generalize p.toList.dropWhile isSlash = path at front start ⊢
  rw [split, front]
  exact .intro _ _ _ (fun h => by simpa [slash] using first _ h) (fun h => by simpa [slash] using last _ h)
    fun h => by simpa [slash] using start _ h

/-- There is one slash at the start. -/
theorem Joined.one_slash {v p joined : List Char} (h : Joined v p joined) :
    ∃ rest, joined = '/' :: rest ∧ rest.head? ≠ some '/' := by
  obtain @⟨-, -, -, core, path, first, -, start⟩ := h
  refine ⟨_, rfl, ?_⟩
  cases core with
  | nil => simpa [divider] using start
  | cons c core => simpa using first

/-- A path that begins with one slash stays as it is without a version. -/
theorem versioned_one_slash {p : String} {rest : List Char} (h : p.toList = '/' :: rest)
    (one : rest.head? ≠ some '/') : versioned "" p = p := by
  have kept : rest.dropWhile isSlash = rest := by
    cases rest with
    | nil => rfl
    | cons c rest => exact List.dropWhile_cons_of_neg (by simpa [isSlash] using one)
  rw [← String.toList_inj, versioned_toList, h, List.dropWhile_cons_of_pos rfl, kept]
  rfl

theorem versioned_versioned (v p : String) : versioned "" (versioned v p) = versioned v p := by
  obtain ⟨rest, h, one⟩ := (joined_versioned v p).one_slash
  exact versioned_one_slash h one

/-- Slashes around a version and before a path do not count. -/
theorem versioned_slashes (v p : String) (before after front : Nat) :
    versioned (String.ofList (List.replicate before '/' ++ v.toList ++ List.replicate after '/'))
      (String.ofList (List.replicate front '/' ++ p.toList)) = versioned v p := by
  have slashes : ∀ n, ∀ c ∈ List.replicate n '/', isSlash c = true := fun n c hc => by
    rw [List.eq_of_mem_replicate hc]
    rfl
  rw [← String.toList_inj, versioned_toList, versioned_toList, String.toList_ofList, String.toList_ofList,
    stripEnds_append (slashes before) (slashes after), List.dropWhile_append_of_pos (slashes front)]

/-! ## Segments -/

/-- A segment and what it is in a pattern: a name behind a colon or a star gets braces, and the star goes with it;
every other segment stays. -/
inductive InBraces : List Char → List Char → Prop
  | parameter (name : List Char) : InBraces (':' :: name) ('\x7b' :: name ++ ['\x7d'])
  | rest (name : List Char) : InBraces ('*' :: name) ('\x7b' :: '*' :: name ++ ['\x7d'])
  | other {s : List Char} (colon : s.head? ≠ some ':') (star : s.head? ≠ some '*') : InBraces s s

theorem inBraces_iff {s t : List Char} : InBraces s t ↔ t = braceSegment s := by
  constructor
  · rintro (name | name | ⟨colon, star⟩)
    · rfl
    · rfl
    · unfold braceSegment
      split
      · exact absurd rfl colon
      · exact absurd rfl star
      · rfl
  · rintro rfl
    unfold braceSegment
    split
    · exact .parameter _
    · exact .rest _
    · next colon star =>
      refine .other (fun h => ?_) fun h => ?_
      · obtain ⟨name, rfl⟩ := List.head?_eq_some_iff.mp h
        exact colon name rfl
      · obtain ⟨name, rfl⟩ := List.head?_eq_some_iff.mp h
        exact star name rfl

theorem InBraces.again {s t : List Char} (h : InBraces s t) : InBraces t t := by
  cases h with
  | parameter name => exact .other (by simp) (by simp)
  | rest name => exact .other (by simp) (by simp)
  | other colon star => exact .other colon star

/-- Segments are joined to a path and found in it again. -/
theorem splitOn_joinSegments {ss : List (List Char)} (ne : ss ≠ []) (slashless : ∀ s ∈ ss, Slashless s) :
    Text.splitOn isSlash (joinSegments ss) = ss := by
  have alone : ∀ {s : List Char}, Slashless s → Text.splitOn isSlash s = [s] := by
    intro s hs
    induction s with
    | nil => rfl
    | cons c s ih =>
      obtain ⟨hc, hs⟩ := List.forall_mem_cons.mp hs
      rw [Text.splitOn, if_neg (by simpa [isSlash] using hc), ih hs]
  obtain ⟨s, ss, rfl⟩ := List.ne_nil_iff_exists_cons.mp ne
  rw [joinSegments_cons]
  clear ne
  induction ss generalizing s with
  | nil =>
    rw [tailChars, List.append_nil]
    exact alone (slashless s List.mem_cons_self)
  | cons t ss ih =>
    obtain ⟨hs, rest⟩ := List.forall_mem_cons.mp slashless
    rw [tailChars, List.cons_append, splitOn_append, alone hs, ih t rest, List.singleton_append]

theorem segments_braced (p : String) : segments (braced p) = (segments p).map braceSegment := by
  rw [segments, braced, String.toList_ofList]
  refine splitOn_joinSegments (by simpa using Text.splitOn_ne_nil isSlash p.toList) fun t ht => ?_
  obtain ⟨s, hs, rfl⟩ := List.mem_map.mp ht
  exact slashless_braceSegment (splitOn_slashless p.toList s hs)

/-- A path is known by its segments. -/
theorem segments_inj {p q : String} : segments p = segments q ↔ p = q := by
  refine ⟨fun h => ?_, congrArg segments⟩
  rw [← String.toList_inj, ← joinSegments_splitOn p.toList, ← joinSegments_splitOn q.toList]
  exact congrArg joinSegments h

theorem inBraces_segments (p : String) : List.Forall₂ InBraces (segments p) (segments (braced p)) := by
  rw [segments_braced, List.forall₂_map_right_iff, List.forall₂_same]
  exact fun s _ => inBraces_iff.mpr rfl

theorem braced_braced (p : String) : braced (braced p) = braced p := by
  rw [← segments_inj, segments_braced, segments_braced, List.map_map]
  refine List.map_congr_left fun s _ => ?_
  exact (inBraces_iff.mp (inBraces_iff.mpr rfl : InBraces s (braceSegment s)).again).symm

/-- Two segments that are the same in a pattern. -/
def SameInBraces (s t : List Char) : Prop := ∃ u, InBraces s u ∧ InBraces t u

theorem sameInBraces_iff {s t : List Char} : SameInBraces s t ↔ braceSegment s = braceSegment t := by
  simp only [SameInBraces, inBraces_iff, exists_eq_left]

/-- Two paths make the same pattern just if their segments do, one by one. -/
theorem braced_inj {p q : String} : braced p = braced q ↔ List.Forall₂ SameInBraces (segments p) (segments q) := by
  rw [← segments_inj, segments_braced, segments_braced, ← List.forall₂_eq_eq_eq, List.forall₂_map_left_iff,
    List.forall₂_map_right_iff]
  simp only [← sameInBraces_iff]

/-- A path of which some segments have been put in braces makes the same pattern. -/
theorem braced_of_spelled {p q : String}
    (h : List.Forall₂ (fun s t => s = t ∨ InBraces s t) (segments p) (segments q)) : braced q = braced p := by
  refine (braced_inj.mpr (h.imp fun s t spelled => ?_)).symm
  rcases spelled with rfl | spelled
  · exact ⟨_, inBraces_iff.mpr rfl, inBraces_iff.mpr rfl⟩
  · exact ⟨t, spelled, spelled.again⟩

/-! ## The form -/

/-- **One form.** A version and a path are joined with one slash at the start and one between them; more slashes around
the version or before the path change nothing, all other characters are kept in their order, and what is joined stays as
it is if it is joined again. A path has its segments put in braces one by one, in place and in order, and stays as it is
if that is done again. So two paths make one pattern just if their segments are the same in braces, one by one; and a
path makes the same pattern with any of its parameters in braces. -/
theorem normal_form (v p : String) :
    (∃ rest, (versioned v p).toList = '/' :: rest ∧ rest.head? ≠ some '/') ∧
    (∀ before after front : Nat,
      versioned (String.ofList (List.replicate before '/' ++ v.toList ++ List.replicate after '/'))
        (String.ofList (List.replicate front '/' ++ p.toList)) = versioned v p) ∧
    Joined v.toList p.toList (versioned v p).toList ∧
    versioned "" (versioned v p) = versioned v p ∧
    List.Forall₂ InBraces (segments p) (segments (braced p)) ∧
    braced (braced p) = braced p ∧
    (∀ q, braced p = braced q ↔ List.Forall₂ SameInBraces (segments p) (segments q)) ∧
    ∀ q, List.Forall₂ (fun s t => s = t ∨ InBraces s t) (segments p) (segments q) → braced q = braced p :=
  ⟨(joined_versioned v p).one_slash, versioned_slashes v p, joined_versioned v p, versioned_versioned v p,
    inBraces_segments p, braced_braced p, fun _ => braced_inj, fun _ => braced_of_spelled⟩

/-- A path with one of its parameters in braces and the other behind a star makes the pattern of the path. -/
theorem normal_form_mixed :
    List.Forall₂ (fun s t => s = t ∨ InBraces s t) (segments "/:id/*rest") (segments "/{id}/*rest") ∧
      braced "/{id}/*rest" = braced "/:id/*rest" := by
  have mixed : List.Forall₂ (fun s t => s = t ∨ InBraces s t) (segments "/:id/*rest") (segments "/{id}/*rest") :=
    .cons (.inl rfl) (.cons (.inr (.parameter "id".toList)) (.cons (.inl rfl) .nil))
  obtain ⟨-, -, -, -, -, -, -, same⟩ := normal_form "" "/:id/*rest"
  exact ⟨mixed, same _ mixed⟩

/-- A lone colon, a name in braces, and a segment that is empty. -/
example : braced (versioned "//v1/" "//:/{id}//*rest") = "/v1/{}/{id}//{*rest}" := by decide +kernel

end JsonService.Route
