import JsonService.Proofs.Route.Params
import JsonService.Proofs.Route.Pieces

/-!
# Patterns filled with values

A path that a route is found for is the pattern of the route filled with the values of its parameters: each stands at
its place for a text of its own, character for character, though the search cuts bytes.

**Results.**
* `fits_filled`: a path that the tokens of a pattern fit is the pattern filled (`Filled`).
* `Filled.fill_eq`: so filling in the values of the parameters by their names gives back the path.
* `exists_source`: every route in a table was put there by an attempt that succeeded, whatever else was attempted.
* `lookup_filled`: what is looked up is the pattern of such an attempt, filled.
-/
namespace JsonService.Route

open Text.Utf8 (encode decodeLossy)

variable {α : Type}

/-- A path is a pattern filled with these values for the parameters of these names. -/
inductive Filled : List Piece → List Char → List (List Char × List Char) → Prop
  | nil : Filled [] [] []
  | text (c : Char) : Filled ps path values → Filled (.text c :: ps) (c :: path) values
  | parameter (name value : List Char) : value ≠ [] → Slashless value → Filled ps path values →
      Filled (.parameter name :: ps) (value ++ path) ((name, value) :: values)
  | rest (name path : List Char) : path ≠ [] → Filled [.rest name] path [(name, path)]

def pieceNames (ps : List Piece) : List (List Char) := ps.filterMap Piece.name?

/-- A pattern with values for its parameters, by their names. -/
def fill (value : List Char → List Char) (ps : List Piece) : List Char :=
  ps.flatMap fun
    | .text c => [c]
    | .parameter name => value name
    | .rest name => value name

/-! ## Bytes and characters -/

theorem Fits.literal_cases {bs : List UInt8} {ts : List Token} {path : List UInt8} {values : List (List UInt8)}
    {rest : Option (List UInt8 × List UInt8)} (h : Fits (Route.literal bs ++ ts) path values rest) :
    ∃ more, path = bs ++ more ∧ Fits ts more values rest := by
  induction bs generalizing path with
  | nil => exact ⟨path, rfl, h⟩
  | cons b bs ih =>
    cases h with
    | byte _ h =>
      obtain ⟨more, rfl, fits⟩ := ih h
      exact ⟨more, rfl, fits⟩

/-- Where a parameter ends a character begins, or the path ends. -/
theorem Tells.boundary {ps : List Piece} {ts : List Token} (h : Tells ps ts) {path : List UInt8}
    {values : List (List UInt8)} {rest : Option (List UInt8 × List UInt8)} (fits : Fits ts path values rest)
    (spaced : ts = [] ∨ ∃ b, ts.head? = some (.byte b) ∧ ¬IsBrace b) : ∀ b ∈ path.head?, b.IsUTF8FirstByte := by
  cases h with
  | nil =>
    cases fits
    nofun
  | text c h =>
    obtain ⟨more, rfl, -⟩ := fits.literal_cases
    intro b hb
    refine Text.Utf8.head_isUTF8FirstByte c b ?_
    rwa [List.head?_append_of_ne_nil _ String.utf8EncodeChar_ne_nil] at hb
  | parameter => rcases spaced with h | ⟨b, h, -⟩ <;> cases h
  | rest => rcases spaced with h | ⟨b, h, -⟩ <;> cases h

/-- The path that the tokens of a pattern fit, and the values that were cut from it, as characters. -/
theorem fits_filled {ps : List Piece} {ts : List Token} (tells : Tells ps ts) (spaced : SpacedTokens ts)
    {path : List Char} {values : List (List UInt8)} {rest : Option (List UInt8 × List UInt8)}
    (fits : Fits ts (encode path) values rest) (slashless : ∀ v ∈ values, slash ∉ v) :
    ∃ filled, Filled ps path filled ∧ ((parameterNames ps).map encode).zip values ++ rest.toList =
      filled.map fun (name, value) => (encode name, encode value) := by
  generalize hpath : encode path = bs at fits
  induction tells generalizing path bs values rest with
  | nil =>
    cases fits
    obtain rfl := Text.Utf8.encode_eq_nil.mp hpath
    exact ⟨[], .nil, rfl⟩
  | @text ps ts c tells ih =>
    obtain ⟨more, rfl, behind⟩ := fits.literal_cases
    obtain ⟨path, rfl, rfl⟩ := Text.Utf8.encode_eq_char_append hpath
    obtain ⟨filled, whole, named⟩ := ih (spacedTokens_literal.mp spaced) slashless _ rfl behind
    exact ⟨filled, .text c whole, named⟩
  | @parameter ps ts name tells ih =>
    cases fits with
    | @parameter _ path' values' _ value ne fits =>
      obtain ⟨first, others⟩ := List.forall_mem_cons.mp slashless
      obtain ⟨as, bs, rfl, rfl, rfl⟩ := Text.Utf8.encode_eq_append hpath (tells.boundary fits spaced.1)
      obtain ⟨filled, whole, named⟩ := ih spaced.2 others _ rfl fits
      have bare : Slashless as := fun c hc eq =>
        first ((Text.Utf8.mem_encode encode_slash (by decide)).mpr (eq ▸ hc))
      refine ⟨(name, as) :: filled, .parameter name as (fun nil => ne (nil ▸ rfl)) bare whole, ?_⟩
      rw [List.map_cons, ← named]
      rfl
  | @rest label ps ts name catchAll tells ih =>
    cases fits with
    | rest _ _ ne =>
      obtain rfl := tells.eq_nil rfl
      subst hpath
      refine ⟨[(name, path)], .rest name path (fun nil => ne (nil ▸ rfl)), ?_⟩
      simp [parameterNames, Piece.parameter?, catchAll]

/-! ## Values by their names -/

theorem Filled.names {ps : List Piece} {path : List Char} {values : List (List Char × List Char)}
    (h : Filled ps path values) : values.map Prod.fst = pieceNames ps := by
  induction h with
  | nil => rfl
  | text c _ ih => exact ih
  | parameter name value _ _ _ ih => exact congrArg (name :: ·) ih
  | rest name path _ => rfl

/-- Filling in the values by their names gives back the path. -/
theorem Filled.fill_eq {ps : List Piece} {path : List Char} {values : List (List Char × List Char)}
    (h : Filled ps path values) {value : List Char → List Char} (hvalue : ∀ v ∈ values, value v.1 = v.2) :
    fill value ps = path := by
  induction h with
  | nil => rfl
  | text c _ ih => exact congrArg (c :: ·) (ih hvalue)
  | parameter name v _ _ _ ih =>
    obtain ⟨first, hvalue⟩ := List.forall_mem_cons.mp hvalue
    have tail := ih hvalue
    rw [fill] at tail ⊢
    rw [List.flatMap_cons, tail]
    exact congrArg (· ++ _) first
  | rest name path _ =>
    have single := hvalue _ (List.mem_singleton_self _)
    simpa [fill] using single

theorem Filled.values_ne_nil {ps : List Piece} {path : List Char} {values : List (List Char × List Char)}
    (h : Filled ps path values) : ∀ v ∈ values, v.2 ≠ [] := by
  induction h with
  | nil => nofun
  | text c _ ih => exact ih
  | parameter name value ne _ _ ih => exact List.forall_mem_cons.mpr ⟨ne, ih⟩
  | rest name path ne => exact List.forall_mem_singleton.mpr ne

/-- The values of parameters that are no catch-alls are within their segments. -/
theorem Filled.slashless {ps : List Piece} {path : List Char} {values : List (List Char × List Char)}
    (h : Filled ps path values) (distinct : (pieceNames ps).Nodup) :
    ∀ v ∈ values, .parameter v.1 ∈ ps → Slashless v.2 := by
  induction h with
  | nil => nofun
  | @text ps path values c _ ih =>
    intro v hv mem
    exact ih distinct v hv (by simpa using mem)
  | @parameter ps path values name value ne bare h ih =>
    have distinct : (name :: pieceNames ps).Nodup := distinct
    refine List.forall_mem_cons.mpr ⟨fun _ => bare, fun v hv mem => ?_⟩
    refine ih (List.nodup_cons.mp distinct).2 v hv ?_
    rcases List.mem_cons.mp mem with same | mem
    · have known : v.1 ∈ pieceNames ps := h.names ▸ List.mem_map_of_mem hv
      exact absurd (Piece.parameter.inj same ▸ known) (List.nodup_cons.mp distinct).1
    · exact mem
  | rest name path ne =>
    intro v hv mem
    simp at mem

theorem params_filled {m : Match α} {filled : List (List Char × List Char)}
    (h : m.leaf.names.zip m.values ++ m.rest.toList = filled.map fun (name, value) => (encode name, encode value)) :
    m.params = filled.map fun (name, value) => (String.ofList name, String.ofList value) := by
  rw [Match.params, h, List.map_map]
  refine List.map_congr_left fun kv _ => ?_
  simp only [Function.comp_apply, decodeLossy_encode]

/-! ## Tables -/

/-- The pattern of a route. -/
@[irreducible] def Attempt.pattern (a : Attempt α) : List Char := (braced (versioned a.version a.path)).toList

theorem patternBytes_eq (a : Attempt α) : Table.patternBytes (versioned a.version a.path) = encode a.pattern := by
  rw [Attempt.pattern]
  rfl

/-- A route that an attempt may put into a tree: if no brace follows a parameter, it says what the pattern says. -/
def Attempt.Puts (a : Attempt α) (e : Entry α) : Prop :=
  e.2.value = a.value ∧ (Spaced (marked a.pattern) → ∃ ps cs, Renamed (marked a.pattern) ps cs e.1 ∧
    e.2.names = (parameterNames ps).map encode)

/-- What an attempt puts into the tree of its method, if anything. -/
theorem attempt_puts {t : Tree α} (sane : t.Sane True) (a : Attempt α) :
    (t.add (encode a.pattern) a.value).2.Sane True ∧ ∀ e ∈ (t.add (encode a.pattern) a.value).2.routes,
      e ∈ t.routes ∨ (t.add (encode a.pattern) a.value).1 = .ok () ∧ a.Puts e := by
  cases normal : normalize (cells (encode a.pattern)) with
  | error fault =>
    simp only [Tree.add, normal]
    exact ⟨sane, fun e he => .inl he⟩
  | ok found =>
    obtain ⟨route, names⟩ := found
    obtain ⟨⟨ts, written⟩, regular⟩ := normalize_written normal
    obtain ⟨ts, written, puts⟩ : ∃ ts, Written route ts ∧ a.Puts (ts, ⟨a.value, names⟩) := by
      by_cases spaced : Spaced (marked a.pattern)
      · obtain ⟨ps, ts, renamed, named⟩ := normalize_pieces spaced normal
        exact ⟨ts, renamed.written, rfl, fun _ => ⟨ps, route, renamed, named⟩⟩
      · exact ⟨ts, written, rfl, fun h => absurd h spaced⟩
    obtain ⟨sane, adds⟩ := add_placed sane a.value normal written regular
    exact ⟨sane, fun e he => (adds e he).imp_right fun hex => ⟨hex.1, by rw [hex.2]; exact puts⟩⟩

/-- An attempt among others, and the one that a route comes from: it succeeded. -/
structure Source (as : List (Attempt α)) (before : List (Attempt α)) (a : Attempt α) : Prop where
  place : ∃ more, as = before ++ a :: more
  ok : ((Table.after {} before).attempt a).1 = .ok ()

theorem Source.snoc {as before : List (Attempt α)} {a : Attempt α} (h : Source as before a) (b : Attempt α) :
    Source (as ++ [b]) before a := by
  obtain ⟨⟨more, rfl⟩, ok⟩ := h
  exact ⟨⟨more ++ [b], by simp⟩, ok⟩

/-- Every route in a tree was put there by an attempt for its method that succeeded, whatever else was attempted. -/
theorem exists_source (as : List (Attempt α)) (m : Method) : ((Table.after {} as).trees m).Sane True ∧
    ∀ e ∈ ((Table.after {} as).trees m).routes, ∃ before a, Source as before a ∧ a.method = m ∧ a.Puts e := by
  induction as using List.reverseRecOn with
  | nil => exact ⟨⟨saneLabel_nil True, saneBranches_nil, saneWild_none⟩, nofun⟩
  | append_singleton as b ih =>
    have last : Table.after {} (as ++ [b]) = ((Table.after {} as).attempt b).2 := by
      rw [Table.after, List.foldl_append]
      rfl
    rw [last, attempt_trees]
    by_cases same : m = b.method
    · subst same
      rw [if_pos rfl, patternBytes_eq]
      obtain ⟨sane, added⟩ := attempt_puts ih.1 b
      refine ⟨sane, fun e he => ?_⟩
      rcases added e he with old | ⟨ok, puts⟩
      · obtain ⟨before, a, source, method, puts⟩ := ih.2 e old
        exact ⟨before, a, source.snoc b, method, puts⟩
      · refine ⟨as, b, ⟨⟨[], rfl⟩, ?_⟩, rfl, puts⟩
        rw [attempt_outcome, patternBytes_eq]
        exact ok
    · rw [if_neg same]
      refine ⟨ih.1, fun e he => ?_⟩
      obtain ⟨before, a, source, method, puts⟩ := ih.2 e he
      exact ⟨before, a, source.snoc b, method, puts⟩

/-- What is looked up is what an attempt for the method put there that succeeded; if no brace follows a parameter in
its pattern, that is the path once it is filled with the parameters. -/
theorem lookup_filled {as : List (Attempt α)} {m : Method} {path : String} {v : α} {params : List (String × String)}
    (found : (Table.after {} as).lookup m path = .found v params) : ∃ before a, Source as before a ∧ a.method = m ∧
      a.value = v ∧ (Spaced (marked a.pattern) → ∃ ps filled, pieces none (marked a.pattern) = some ps ∧
        Filled ps path.toList filled ∧
        params = filled.map fun (name, value) => (String.ofList name, String.ofList value)) := by
  rw [Table.lookup] at found
  cases hfind : ((Table.after {} as).trees m).find (Text.Utf8.bytes path) with
  | none =>
    simp only [hfind] at found
    split at found <;> cases found
  | some result =>
    simp only [hfind] at found
    cases found
    obtain ⟨sane, sources⟩ := exists_source as m
    obtain ⟨ts, mem, fits, slashless⟩ := find_found _ _ _ hfind True
    obtain ⟨before, a, source, method, value, puts⟩ := sources _ mem
    refine ⟨before, a, source, method, value.symm, fun spaced => ?_⟩
    obtain ⟨ps, cs, renamed, names⟩ := puts spaced
    obtain ⟨filled, whole, named⟩ := fits_filled renamed.tells renamed.spaced fits
      (slashless ⟨sane, trivial⟩ renamed.spaced)
    exact ⟨ps, filled, renamed.read, whole, params_filled (names ▸ named)⟩

end JsonService.Route
