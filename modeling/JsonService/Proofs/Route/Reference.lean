import JsonService.Proofs.Route.Insertion
import JsonService.Proofs.Route.Segments
import JsonService.Route.Table

/-!
# Routing as a flat table

A table of routes answers like a plain list of the routes that were registered in it, in which each is looked at
as a list of segments: the most specific route for a path is found, whatever else was attempted, and in
whatever order.

**The list (`Holds`).** After any attempts, the tree of every method is valid and holds the routes of its method
that were registered, no two of which have one shape. One attempt keeps this, whether it succeeds or not
(`Holds.attempt`), and so do all of them (`Holds.after`).

**Results.**
* `lookup_answers`: what is looked up is answered as the list of registered routes says.
* `lookup_unique`: tables that hold the same routes answer alike.
* `routing_reference`: so after any attempts, nothing but the list of those that succeeded matters.
-/
namespace JsonService.Route

open Text.Utf8 (encode)

variable {α : Type}

/-- An attempt to register a route. -/
structure Attempt (α : Type) where
  method : Method
  version : String
  path : String
  value : α
  deriving DecidableEq

namespace Attempt

variable (a : Attempt α)

/-- The segments of a route as they are spelled. No proof should split a path to see what it comes to. -/
@[irreducible] def spelling : List (List Char) := segments (versioned a.version a.path)

/-- The segments of a route. -/
def route : List Segment := a.spelling.map Segment.ofSpelling

/-- Every parameter fills its segment, and literal text has no braces. -/
def Whole : Prop := ∀ s ∈ a.spelling, WholeSegment s

/-- The tokens of a route and what it leads to. -/
def entry : Entry α := (routeTokens a.spelling, ⟨a.value, rawNames (routeRaws a.spelling)⟩)

end Attempt

namespace Table

def attempt (t : Table α) (a : Attempt α) : Outcome × Table α :=
  t.insert a.method (versioned a.version a.path) a.value

/-- The table after some attempts, the first one first. -/
def after (t : Table α) (as : List (Attempt α)) : Table α := as.foldl (fun t a => (t.attempt a).2) t

/-- The attempts that succeed. -/
def registered (t : Table α) : List (Attempt α) → List (Attempt α)
  | [] => []
  | a :: as => (if (t.attempt a).1.isOk then [a] else []) ++ registered (t.attempt a).2 as

/-- Looks a request up, with the trees of other methods visited in some order. -/
def lookupIn (t : Table α) (order : List Method) (method : Method) (path : String) : Lookup α :=
  match (t.trees method).find (Text.Utf8.bytes path) with
  | some m => .found m.leaf.value m.params
  | none =>
    if order.any fun m => m ≠ method ∧ ((t.trees m).find (Text.Utf8.bytes path)).isSome then .methodNotAllowed
    else .notFound

theorem lookup_eq (t : Table α) (method : Method) (path : String) :
    t.lookup method path = t.lookupIn Method.all method path := by
  cases hfind : (t.trees method).find (Text.Utf8.bytes path) with
  | none => simp only [lookup, lookupIn, hfind]
  | some m => simp only [lookup, lookupIn, hfind]

end Table

/-- What a list of routes answers to a path: the most specific of the routes that are for it. -/
structure Answers (rs : List (Attempt α)) (method : Method) (path : List (List Char)) (answer : Lookup α) : Prop where
  found : (∃ v params, answer = .found v params) ↔ ∃ r ∈ rs, r.method = method ∧ Matches r.route path
  best : ∀ v params, answer = .found v params → ∃ r ∈ rs, (r.method = method ∧ Matches r.route path) ∧ r.value = v ∧
    ∀ x ∈ rs, x.method = method ∧ Matches x.route path → x = r ∨ MoreSpecific r.route x.route
  methodNotAllowed : answer = .methodNotAllowed ↔
    (¬ ∃ r ∈ rs, r.method = method ∧ Matches r.route path) ∧ ∃ r ∈ rs, r.method ≠ method ∧ Matches r.route path
  notFound : answer = .notFound ↔ ¬ ∃ r ∈ rs, Matches r.route path

/-- A table that holds these routes: each is in the tree of its method, and no two are of one shape. -/
structure Holds (t : Table α) (rs : List (Attempt α)) : Prop where
  valid : ∀ m, (t.trees m).Valid 0 ∧ BeginWith slash (t.trees m).routes
  routes : ∀ m e, e ∈ (t.trees m).routes ↔ ∃ r ∈ rs, r.method = m ∧ r.entry = e
  distinct : ∀ r ∈ rs, ∀ x ∈ rs, r.method = x.method →
    r.entry.1.map Token.shape = x.entry.1.map Token.shape → r = x
  whole : ∀ r ∈ rs, r.Whole

/-! ## Routes of attempts -/

section
variable (a : Attempt α)

theorem versioned_slash (version path : String) : ∃ cs, (versioned version path).toList = '/' :: cs := by
  simp only [versioned, String.toList_ofList]
  split
  · exact ⟨_, rfl⟩
  · split
    · exact ⟨_, rfl⟩
    · exact ⟨_, rfl⟩

theorem spelling_def : a.spelling = Text.splitOn isSlash (versioned a.version a.path).toList := by
  rw [Attempt.spelling, segments]

theorem mem_versioned {c : Char} {version path : String} (hc : c ∈ (versioned version path).toList) :
    c = '/' ∨ c ∈ version.toList ∨ c ∈ path.toList := by
  have hpath : c ∈ path.toList.dropWhile isSlash → c ∈ path.toList :=
    fun hc => (List.dropWhile_sublist isSlash).mem hc
  have hversion : c ∈ Text.stripEnds isSlash version.toList → c ∈ version.toList := by
    intro hc
    rw [Text.stripEnds, List.mem_reverse] at hc
    have hc := (List.dropWhile_sublist isSlash).mem hc
    rw [List.mem_reverse] at hc
    exact (List.dropWhile_sublist isSlash).mem hc
  simp only [versioned, String.toList_ofList] at hc
  split at hc
  · rcases List.mem_cons.mp hc with hc | hc
    · exact Or.inl hc
    · exact Or.inr (Or.inr (hpath hc))
  · split at hc
    · rcases List.mem_cons.mp hc with hc | hc
      · exact Or.inl hc
      · exact Or.inr (Or.inl (hversion hc))
    · rcases List.mem_append.mp hc with hc | hc
      · rcases List.mem_cons.mp hc with hc | hc
        · exact Or.inl hc
        · exact Or.inr (Or.inl (hversion hc))
      · rcases List.mem_cons.mp hc with hc | hc
        · exact Or.inl hc
        · exact Or.inr (Or.inr (hpath hc))

theorem spelling_eq : ∃ s ss, a.spelling = [] :: s :: ss := by
  obtain ⟨cs, hcs⟩ := versioned_slash a.version a.path
  obtain ⟨s, ss, hsplit⟩ := List.ne_nil_iff_exists_cons.mp (Text.splitOn_ne_nil isSlash cs)
  refine ⟨s, ss, ?_⟩
  rw [spelling_def, hcs, Text.splitOn, if_pos (by decide), hsplit]

theorem routeTokens_slash : (routeTokens a.spelling).head? = some (.byte slash) := by
  obtain ⟨s, ss, hspelling⟩ := spelling_eq a
  rw [hspelling, routeTokens_cons, tailTokens_cons]
  rfl

variable {a}

/-- A route that is spelled without braces is one of whole segments, whatever it says. -/
theorem whole_of_braceless (h : ∀ c ∈ a.version.toList ++ a.path.toList, c ≠ '\x7b' ∧ c ≠ '\x7d') : a.Whole := by
  intro s hs
  apply wholeSegment_braceless
  intro c hc
  rw [spelling_def] at hs
  rcases mem_versioned (mem_of_splitOn hs hc) with rfl | hc | hc
  · decide
  · exact h c (List.mem_append_left _ hc)
  · exact h c (List.mem_append_right _ hc)

theorem proper_spelling (hw : a.Whole) : ProperSegments a.spelling := by
  intro s hs
  refine ⟨hw s hs, ?_⟩
  rw [spelling_def] at hs
  exact splitOn_slashless _ s hs

/-- A route that is refused on account of its parameters gets nowhere near the tree; every other one gets there
as its tokens. -/
theorem normalize_spelling (hw : a.Whole) :
    (∃ fault, normalize (cells (Table.patternBytes (versioned a.version a.path))) = .error fault) ∨
      normalize (cells (Table.patternBytes (versioned a.version a.path))) =
        .ok (write 0 (routeTokens a.spelling), rawNames (routeRaws a.spelling)) ∧
        Proper 0 (routeTokens a.spelling) := by
  have hnormal := normalizeFrom_spell (spell_route hw).2 ((spell (routeRaws a.spelling)).length + 1) [] []
    (Nat.le_succ _)
  simp only [List.length_nil, List.nil_append] at hnormal
  have hcells : cells (Table.patternBytes (versioned a.version a.path)) = spell (routeRaws a.spelling) := by
    rw [Table.patternBytes, braced, Text.Utf8.bytes_ofList, ← spelling_def]
    exact (spell_route hw).1
  rw [hcells, normalize]
  exact hnormal

end

/-! ## Attempts -/

/-- What an attempt makes of the tree of its method. -/
theorem tree_attempt {t : Tree α} {a : Attempt α} (hw : a.Whole) (hv : t.Valid 0) (hbegin : BeginWith slash t.routes)
    {r : Outcome × Tree α} (hr : t.add (Table.patternBytes (versioned a.version a.path)) a.value = r) :
    (r.2.Valid 0 ∧ BeginWith slash r.2.routes) ∧ Grows t.routes r.2.routes a.entry r.1 := by
  subst hr
  rcases normalize_spelling hw with ⟨fault, hfault⟩ | ⟨hok, hproper⟩
  · have hr : t.add (Table.patternBytes (versioned a.version a.path)) a.value = (.error fault, t) := by
      simp only [Tree.add, hfault]
    rw [hr]
    exact ⟨⟨hv, hbegin⟩, Grows.refused _ _ fault⟩
  · exact Tree.add_grows a.value hv hbegin hproper (routeTokens_slash a) hok

/-- An attempt changes the tree of its method and no other one. -/
theorem attempt_trees (t : Table α) (a : Attempt α) (m : Method) : (t.attempt a).2.trees m =
    if m = a.method then ((t.trees a.method).add (Table.patternBytes (versioned a.version a.path)) a.value).2
    else t.trees m := by
  simp only [Table.attempt, Table.insert]

theorem attempt_outcome (t : Table α) (a : Attempt α) : (t.attempt a).1 =
    ((t.trees a.method).add (Table.patternBytes (versioned a.version a.path)) a.value).1 := by
  simp only [Table.attempt, Table.insert]

theorem isOk_iff {o : Outcome} : o.isOk = true ↔ o = .ok () := by
  cases o with
  | ok u => exact ⟨fun _ => rfl, fun _ => rfl⟩
  | error fault => exact ⟨nofun, nofun⟩

namespace Holds

variable {t : Table α} {rs : List (Attempt α)}

theorem empty : Holds ({} : Table α) [] where
  valid m := by
    constructor
    · exact ⟨⟨rfl, nofun⟩, validBranches_nil 0, validWild_none 0⟩
    · nofun
  routes m e := by
    constructor
    · nofun
    · intro hex
      obtain ⟨r, hr, -⟩ := hex
      cases hr
  distinct := nofun
  whole := nofun

theorem attempt (h : Holds t rs) {a : Attempt α} (hw : a.Whole) :
    Holds (t.attempt a).2 (rs ++ if (t.attempt a).1.isOk then [a] else []) := by
  obtain ⟨hvalid, hgrows⟩ := tree_attempt hw (h.valid a.method).1 (h.valid a.method).2 rfl
  rw [← attempt_outcome] at hgrows
  have hadded : ∀ r, r ∈ (if (t.attempt a).1.isOk then [a] else []) ↔ (t.attempt a).1 = .ok () ∧ r = a := by
    intro r
    rw [← isOk_iff]
    cases (t.attempt a).1.isOk <;> simp
  constructor
  · intro m
    rw [attempt_trees]
    by_cases hm : m = a.method
    · rw [if_pos hm]
      exact hvalid
    · rw [if_neg hm]
      exact h.valid m
  · intro m e
    simp only [List.mem_append, hadded]
    rw [attempt_trees]
    by_cases hm : m = a.method
    · subst hm
      rw [if_pos rfl, hgrows.mem, h.routes]
      constructor
      · intro hor
        rcases hor with ⟨r, hr, hmethod, hentry⟩ | ⟨ok, rfl⟩
        · exact ⟨r, Or.inl hr, hmethod, hentry⟩
        · exact ⟨a, Or.inr ⟨ok, rfl⟩, rfl, rfl⟩
      · intro hex
        rcases hex with ⟨r, hr | ⟨ok, rfl⟩, hmethod, hentry⟩
        · exact Or.inl ⟨r, hr, hmethod, hentry⟩
        · exact Or.inr ⟨ok, hentry.symm⟩
    · rw [if_neg hm, h.routes]
      constructor
      · intro hex
        obtain ⟨r, hr, hmethod, hentry⟩ := hex
        exact ⟨r, Or.inl hr, hmethod, hentry⟩
      · intro hex
        rcases hex with ⟨r, hr | ⟨-, rfl⟩, hmethod, hentry⟩
        · exact ⟨r, hr, hmethod, hentry⟩
        · exact absurd hmethod.symm hm
  · have hfresh : (t.attempt a).1 = .ok () → ∀ r ∈ rs, r.method = a.method →
        r.entry.1.map Token.shape ≠ a.entry.1.map Token.shape := by
      intro ok r hr hmethod
      exact hgrows.fresh ok r.entry ((h.routes _ _).mpr ⟨r, hr, hmethod, rfl⟩)
    simp only [List.mem_append, hadded]
    intro r hr x hx hmethod hshape
    rcases hr with hr | ⟨ok, rfl⟩
    · rcases hx with hx | ⟨ok, rfl⟩
      · exact h.distinct r hr x hx hmethod hshape
      · exact absurd hshape (hfresh ok r hr hmethod)
    · rcases hx with hx | ⟨-, rfl⟩
      · exact absurd hshape.symm (hfresh ok x hx hmethod.symm)
      · rfl
  · intro r hr
    rcases List.mem_append.mp hr with hr | hr
    · exact h.whole r hr
    · obtain ⟨-, rfl⟩ := (hadded r).mp hr
      exact hw

/-- Any attempts: the table holds the routes that were registered, and no trace of the others. -/
theorem after (h : Holds t rs) {as : List (Attempt α)} (hw : ∀ a ∈ as, a.Whole) :
    Holds (t.after as) (rs ++ t.registered as) := by
  induction as generalizing t rs with
  | nil =>
    rw [Table.registered, List.append_nil]
    exact h
  | cons a as ih =>
    obtain ⟨ha, has⟩ := List.forall_mem_cons.mp hw
    have hafter := ih (h.attempt ha) has
    rw [Table.after] at hafter ⊢
    rw [List.foldl_cons, Table.registered, ← List.append_assoc]
    exact hafter

end Holds

/-! ## Answers -/

namespace Answers

variable {rs : List (Attempt α)} {method : Method} {path : List (List Char)}

theorem of_best {v : α} {params : List (String × String)}
    (hbest : ∃ r ∈ rs, (r.method = method ∧ Matches r.route path) ∧ r.value = v ∧
      ∀ x ∈ rs, x.method = method ∧ Matches x.route path → x = r ∨ MoreSpecific r.route x.route) :
    Answers rs method path (.found v params) := by
  obtain ⟨r, hr, hfor, -⟩ := id hbest
  constructor
  · exact ⟨fun _ => ⟨r, hr, hfor⟩, fun _ => ⟨v, params, rfl⟩⟩
  · intro v params heq
    cases heq
    exact hbest
  · exact ⟨nofun, fun hnot => absurd ⟨r, hr, hfor⟩ hnot.1⟩
  · exact ⟨nofun, fun hnot => absurd ⟨r, hr, hfor.2⟩ hnot⟩

theorem of_other (hnot : ¬ ∃ r ∈ rs, r.method = method ∧ Matches r.route path)
    (hother : ∃ r ∈ rs, r.method ≠ method ∧ Matches r.route path) :
    Answers rs method path .methodNotAllowed := by
  constructor
  · exact ⟨nofun, fun hfor => absurd hfor hnot⟩
  · nofun
  · exact ⟨fun _ => ⟨hnot, hother⟩, fun _ => rfl⟩
  · obtain ⟨r, hr, -, hmatches⟩ := hother
    exact ⟨nofun, fun hunknown => absurd ⟨r, hr, hmatches⟩ hunknown⟩

theorem of_none (hnot : ¬ ∃ r ∈ rs, r.method = method ∧ Matches r.route path)
    (hother : ¬ ∃ r ∈ rs, r.method ≠ method ∧ Matches r.route path) : Answers rs method path .notFound := by
  constructor
  · exact ⟨nofun, fun hfor => absurd hfor hnot⟩
  · nofun
  · exact ⟨nofun, fun hallowed => absurd hallowed.2 hother⟩
  · refine ⟨fun _ hex => ?_, fun _ => rfl⟩
    obtain ⟨r, hr, hmatches⟩ := hex
    by_cases hmethod : r.method = method
    · exact hnot ⟨r, hr, hmethod, hmatches⟩
    · exact hother ⟨r, hr, hmethod, hmatches⟩

end Answers

/-! ## Lookups -/

theorem bytes_path (path : String) : Text.Utf8.bytes path = encode (joinSegments (segments path)) := by
  rw [segments, joinSegments_splitOn, Text.Utf8.bytes]

theorem takes_entry {r : Attempt α} (hw : r.Whole) (path : String) :
    (takes r.entry.2 r.entry.1 (Text.Utf8.bytes path)).isSome ↔ Matches r.route (segments path) := by
  obtain ⟨s, ss, hspelling⟩ := spelling_eq r
  have hne : r.spelling ≠ [] := by
    rw [hspelling]
    exact List.cons_ne_nil _ _
  rw [bytes_path]
  exact takes_route r.entry.2 (proper_spelling hw) hne (splitOn_slashless path.toList)
    (Text.splitOn_ne_nil isSlash path.toList)

section
variable {t : Table α} {rs : List (Attempt α)}

/-- Nothing is found for a method if no route of it is for the path. -/
theorem find_eq_none (h : Holds t rs) (m : Method) (path : String) : (t.trees m).find (Text.Utf8.bytes path) = none ↔
    ¬ ∃ r ∈ rs, r.method = m ∧ Matches r.route (segments path) := by
  have hbest := Tree.find_best (t.trees m) 0 (Text.Utf8.bytes path) (h.valid m).1
  constructor
  · intro hnone hex
    obtain ⟨r, hr, hmethod, hmatches⟩ := hex
    rw [hnone] at hbest
    have hnot := hbest r.entry ((h.routes m r.entry).mpr ⟨r, hr, hmethod, rfl⟩)
    have htakes := (takes_entry (h.whole r hr) path).mpr hmatches
    rw [hnot] at htakes
    cases htakes
  · intro hnot
    cases hfind : (t.trees m).find (Text.Utf8.bytes path) with
    | none => rfl
    | some found =>
      rw [hfind] at hbest
      obtain ⟨e, he, htakes, -⟩ := hbest
      obtain ⟨r, hr, hmethod, rfl⟩ := (h.routes m e).mp he
      refine absurd ⟨r, hr, hmethod, (takes_entry (h.whole r hr) path).mp ?_⟩ hnot
      rw [htakes]
      rfl

/-- What is found for a method is what its most specific route for the path leads to. -/
theorem find_most_specific (h : Holds t rs) {m : Method} {path : String} {found : Match α}
    (hfind : (t.trees m).find (Text.Utf8.bytes path) = some found) :
    ∃ r ∈ rs, (r.method = m ∧ Matches r.route (segments path)) ∧ r.value = found.leaf.value ∧
      ∀ x ∈ rs, x.method = m ∧ Matches x.route (segments path) → x = r ∨ MoreSpecific r.route x.route := by
  have hbest := Tree.find_best (t.trees m) 0 (Text.Utf8.bytes path) (h.valid m).1
  rw [hfind] at hbest
  obtain ⟨e, he, htakes, hwins⟩ := hbest
  obtain ⟨r, hr, hmethod, rfl⟩ := (h.routes m e).mp he
  have hmatches : Matches r.route (segments path) := by
    refine (takes_entry (h.whole r hr) path).mp ?_
    rw [htakes]
    rfl
  refine ⟨r, hr, ⟨hmethod, hmatches⟩, ?_, ?_⟩
  · rw [takes_leaf htakes]
    rfl
  · intro x hx hex
    obtain ⟨hmethod', hmatches'⟩ := hex
    have htakes' := (takes_entry (h.whole x hx) path).mpr hmatches'
    rcases hwins x.entry ((h.routes m x.entry).mpr ⟨x, hx, hmethod', rfl⟩) htakes' with heq | hwins
    · left
      exact h.distinct x hx r hr (hmethod'.trans hmethod.symm) (by rw [heq])
    · right
      exact moreSpecific_of_wins (proper_spelling (h.whole r hr)) (proper_spelling (h.whole x hx)) hmatches hmatches'
        hwins

theorem any_find (h : Holds t rs) {order : List Method} (horder : ∀ r ∈ rs, r.method ∈ order) (method : Method)
    (path : String) :
    (order.any fun m => m ≠ method ∧ ((t.trees m).find (Text.Utf8.bytes path)).isSome) = true ↔
      ∃ r ∈ rs, r.method ≠ method ∧ Matches r.route (segments path) := by
  have hsome : ∀ m, ((t.trees m).find (Text.Utf8.bytes path)).isSome = true ↔
      ∃ r ∈ rs, r.method = m ∧ Matches r.route (segments path) := by
    intro m
    rw [Option.isSome_iff_ne_none, Ne, find_eq_none h m path, Classical.not_not]
  simp only [List.any_eq_true, decide_eq_true_eq, hsome]
  constructor
  · intro hex
    obtain ⟨m, -, hne, r, hr, rfl, hmatches⟩ := hex
    exact ⟨r, hr, hne, hmatches⟩
  · intro hex
    obtain ⟨r, hr, hne, hmatches⟩ := hex
    exact ⟨r.method, horder r hr, hne, r, hr, rfl, hmatches⟩

/-- A lookup answers as the list of the registered routes says. -/
theorem lookup_answers (h : Holds t rs) {order : List Method} (horder : ∀ r ∈ rs, r.method ∈ order)
    (method : Method) (path : String) : Answers rs method (segments path) (t.lookupIn order method path) := by
  have hany := any_find h horder method path
  rw [Table.lookupIn]
  cases hfind : (t.trees method).find (Text.Utf8.bytes path) with
  | some found => exact Answers.of_best (find_most_specific h hfind)
  | none =>
    have hnot := (find_eq_none h method path).mp hfind
    simp only
    split
    · rename_i hother
      exact Answers.of_other hnot (hany.mp hother)
    · rename_i hother
      exact Answers.of_none hnot fun hex => hother (hany.mpr hex)

/-- Tables that hold the same routes answer alike, in whatever order the trees are visited. -/
theorem lookup_unique {t' : Table α} {rs' : List (Attempt α)} (h : Holds t rs) (h' : Holds t' rs')
    (hsame : ∀ r, r ∈ rs ↔ r ∈ rs') {order order' : List Method} (horder : ∀ r ∈ rs, r.method ∈ order)
    (horder' : ∀ r ∈ rs', r.method ∈ order') (method : Method) (path : String) :
    t.lookupIn order method path = t'.lookupIn order' method path := by
  have hfind : (t.trees method).find (Text.Utf8.bytes path) = (t'.trees method).find (Text.Utf8.bytes path) := by
    refine (Tree.find_best _ 0 _ (h.valid method).1).unique (Tree.find_best _ 0 _ (h'.valid method).1) ?_
    intro e
    simp only [h.routes, h'.routes, hsame]
  have hany : (order.any fun m => m ≠ method ∧ ((t.trees m).find (Text.Utf8.bytes path)).isSome) =
      order'.any fun m => m ≠ method ∧ ((t'.trees m).find (Text.Utf8.bytes path)).isSome := by
    rw [Bool.eq_iff_iff, any_find h horder, any_find h' horder']
    simp only [hsame]
  rw [Table.lookupIn, Table.lookupIn, hfind, hany]

end

/-! ## The table -/

theorem mem_of_registered {t : Table α} {as : List (Attempt α)} {r : Attempt α} (hr : r ∈ t.registered as) :
    r ∈ as := by
  induction as generalizing t with
  | nil => exact hr
  | cons a as ih =>
    rw [Table.registered] at hr
    rcases List.mem_append.mp hr with hr | hr
    · split at hr
      · exact List.mem_cons.mpr (Or.inl (List.mem_singleton.mp hr))
      · cases hr
    · exact List.mem_cons_of_mem a (ih hr)

/-- After any attempts to register routes whose parameters fill their segments, a lookup answers as the flat
list of those that succeeded says: the most specific route for the path is found, and where there is none it
matters whether another method has one. Neither the order in which the trees are visited nor that of the
attempts matters, nor do the attempts that failed. -/
theorem routing_reference {as : List (Attempt α)} (hwhole : ∀ a ∈ as, a.Whole) (method : Method) (path : String) :
    Answers (Table.registered {} as) method (segments path) ((Table.after {} as).lookup method path) ∧
      (∀ order : List Method, (∀ a ∈ as, a.method ∈ order) →
        (Table.after {} as).lookupIn order method path = (Table.after {} as).lookup method path) ∧
      ∀ bs : List (Attempt α), (∀ b ∈ bs, b.Whole) →
        (∀ r, r ∈ Table.registered {} bs ↔ r ∈ Table.registered {} as) →
        (Table.after {} bs).lookup method path = (Table.after {} as).lookup method path := by
  have hall : ∀ rs : List (Attempt α), ∀ r ∈ rs, r.method ∈ Method.all := fun _ r _ => Method.mem_all r.method
  have hheld : Holds (Table.after {} as) (Table.registered {} as) := Holds.empty.after hwhole
  simp only [Table.lookup_eq]
  refine ⟨lookup_answers hheld (hall _) method path, ?_, ?_⟩
  · intro order horder
    have hvisited : ∀ r ∈ Table.registered {} as, r.method ∈ order := fun r hr => horder r (mem_of_registered hr)
    exact lookup_unique hheld hheld (fun _ => Iff.rfl) hvisited (hall _) method path
  · intro bs hbs hsame
    have hheld' : Holds (Table.after {} bs) (Table.registered {} bs) := Holds.empty.after hbs
    exact lookup_unique hheld' hheld hsame (hall _) (hall _) method path

/-- Four attempts of which the second one fails. -/
def beerRoutes : List (Attempt Nat) :=
  [⟨.get, "v1", "/beers/:id", 1⟩, ⟨.get, "v1", "/beers/:name", 2⟩, ⟨.get, "v1", "/beers/top", 3⟩,
    ⟨.post, "v1", "/files/*rest", 4⟩]

theorem beerRoutes_whole : ∀ a ∈ beerRoutes, a.Whole := by
  have hbraceless : beerRoutes.all (fun a => (a.version.toList ++ a.path.toList).all
      fun c => c ≠ '\x7b' ∧ c ≠ '\x7d') = true := by decide +kernel
  intro a ha
  apply whole_of_braceless
  intro c hc
  exact of_decide_eq_true (List.all_eq_true.mp (List.all_eq_true.mp hbraceless a ha) c hc)

theorem routing_reference_beers : (∀ a ∈ beerRoutes, a.Whole) ∧
    (Table.registered {} beerRoutes).map (·.value) = [1, 3, 4] ∧
    Answers (Table.registered {} beerRoutes) .get (segments "/v1/beers/top")
      ((Table.after {} beerRoutes).lookup .get "/v1/beers/top") ∧
    (∀ order : List Method, (∀ a ∈ beerRoutes, a.method ∈ order) →
      (Table.after {} beerRoutes).lookupIn order .get "/v1/beers/top" =
        (Table.after {} beerRoutes).lookup .get "/v1/beers/top") := by
  obtain ⟨hanswers, hvisit, -⟩ := routing_reference beerRoutes_whole .get "/v1/beers/top"
  exact ⟨beerRoutes_whole, by decide +kernel, hanswers, hvisit⟩

end JsonService.Route
