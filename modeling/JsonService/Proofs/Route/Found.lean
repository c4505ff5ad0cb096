import JsonService.Proofs.Route.Sane

/-!
# What a search finds in any tree

A match that a search comes back with belongs to one route of the tree, and with the values of its parameters filled in
that route is the path (`Fits`), however the tree came about and wherever the search has been before. Values hold no
slash, with one exception: where a brace that stands for itself follows a parameter, a sane tree may have a parameter
that takes the end of its segment with it.

**Results.**
* `find_found`: what a search finds is a route of the tree that the path fits, and in a sane tree its values hold no
  slash if no parameter of the route is followed by a brace.
-/
namespace JsonService.Route

variable {α : Type}

/-- A path is a route with these values for its parameters and its catch-all. -/
inductive Fits : List Token → List UInt8 → List (List UInt8) → Option (List UInt8 × List UInt8) → Prop
  | nil : Fits [] [] [] none
  | byte (b : UInt8) : Fits ts path values rest → Fits (.byte b :: ts) (b :: path) values rest
  | parameter (value : List UInt8) : value ≠ [] → Fits ts path values rest →
      Fits (.parameter :: ts) (value ++ path) (value :: values) rest
  | rest (label path : List UInt8) : path ≠ [] → Fits [.rest cs] path [] (some (catchAllName cs, path))

theorem Fits.literal {ts : List Token} {path : List UInt8} {values : List (List UInt8)}
    {rest : Option (List UInt8 × List UInt8)} (h : Fits ts path values rest) (bs : List UInt8) :
    Fits (literal bs ++ ts) (bs ++ path) values rest := by
  induction bs with
  | nil => exact h
  | cons b bs ih => exact .byte b ih

/-- No parameter is followed by a brace or by another parameter. -/
def SpacedTokens : List Token → Prop
  | [] => True
  | .parameter :: ts => (ts = [] ∨ ∃ b, ts.head? = some (.byte b) ∧ ¬IsBrace b) ∧ SpacedTokens ts
  | .byte _ :: ts => SpacedTokens ts
  | .rest _ :: ts => SpacedTokens ts

theorem spacedTokens_literal {bs : List UInt8} {ts : List Token} :
    SpacedTokens (literal bs ++ ts) ↔ SpacedTokens ts := by
  induction bs with
  | nil => exact Iff.rfl
  | cons b bs ih => exact ih

/-- A match is of one of these routes, which the path is with the values of the match, and the values hold no slash
where `sane` says so. -/
def Found (es : List (Entry α)) (sane : Prop) (path : List UInt8) (m : Match α) : Prop :=
  ∃ ts, (ts, m.leaf) ∈ es ∧ Fits ts path m.values m.rest ∧ (sane → SpacedTokens ts → ∀ v ∈ m.values, slash ∉ v)

/-- What is found in a tree. -/
def Tree.FindsFit (t : Tree α) : Prop :=
  ∀ path m, t.find path = some m → ∀ regular : Prop, Found t.routes (t.Sane regular ∧ regular) path m

section
variable {es : List (Entry α)} {sane : Prop} {path : List UInt8} {m : Match α}

theorem Found.mono {es' : List (Entry α)} {sane' : Prop} (h : Found es sane path m) (sub : ∀ e ∈ es, e ∈ es')
    (less : sane' → sane) : Found es' sane' path m := by
  obtain ⟨ts, mem, fits, slashless⟩ := h
  exact ⟨ts, sub _ mem, fits, fun s => slashless (less s)⟩

theorem Found.literal (bs : List UInt8) (h : Found es sane path m) :
    Found (prefixed (Route.literal bs) es) sane (bs ++ path) m := by
  obtain ⟨ts, mem, fits, slashless⟩ := h
  exact ⟨_, mem_prefixed.mpr ⟨_, mem, rfl⟩, fits.literal bs,
    fun s spaced => slashless s (spacedTokens_literal.mp spaced)⟩

end

theorem findBranch_found {branches : List (UInt8 × Tree α)} (ih : ∀ b ∈ branches, b.2.FindsFit) {path : List UInt8}
    {m : Match α} (h : findBranch path branches = some m) (regular : Prop) :
    Found (branchRoutes branches) (saneBranches regular branches ∧ regular) path m := by
  induction branches with
  | nil => cases h
  | cons b branches ihb =>
    obtain ⟨key, t⟩ := b
    obtain ⟨first, rest⟩ := List.forall_mem_cons.mp ih
    rw [findBranch] at h
    split at h
    · refine (first path m h regular).mono (fun e he => List.mem_append_left _ he) ?_
      rintro ⟨sane, r⟩
      exact ⟨sane.1, r⟩
    · refine (ihb rest h).mono (fun e he => List.mem_append_right _ he) ?_
      rintro ⟨sane, r⟩
      exact ⟨sane.2, r⟩

/-- Which of the texts that may follow a parameter is found, and what stands before it. -/
theorem findSuffix_eq_some {suffixes : List (Tree α)} {path : List UInt8} {length : Nat} {found : Option (Match α)}
    (h : findSuffix path length suffixes = some found) : ∃ t ∈ suffixes, t.label.length < length ∧
      found = (t.find (path.drop (length - t.label.length))).map
        (·.cons (path.take (length - t.label.length))) := by
  induction suffixes with
  | nil => cases h
  | cons t suffixes ih =>
    rw [findSuffix] at h
    split at h
    · next fits =>
      exact ⟨t, List.mem_cons_self, fits.1, (Option.some.inj h).symm⟩
    · obtain ⟨s, hs, hfound⟩ := ih h
      exact ⟨s, List.mem_cons_of_mem _ hs, hfound⟩

/-- What follows a parameter in a sane tree is some text if its route is spaced, and not a brace. -/
theorem SaneSuffix.text {t : Tree α} {regular : Prop} (h : SaneSuffix regular t) (r : regular) {ts : List Token}
    {leaf : Leaf α} (mem : (ts, leaf) ∈ t.routes) (spaced : SpacedTokens (.parameter :: ts)) : TextFirst t.label := by
  obtain ⟨label, priority, value, branches, wild⟩ := t
  obtain ⟨empty | ⟨b, head, text⟩, -⟩ := spaced
  all_goals cases label with
  | nil =>
    obtain ⟨t, first, brace⟩ := h.2.1 r rfl _ mem
    simp_all
  | cons d label =>
    rw [Tree.routes] at mem
    obtain ⟨e, -, heq⟩ := mem_prefixed.mp mem
    obtain rfl := congrArg Prod.fst heq
    first
    | cases empty
    | cases head
      exact ⟨d, rfl, text⟩

theorem slash_notMem_takeWhile (path : List UInt8) {n : Nat} (h : n ≤ (path.takeWhile (· ≠ slash)).length) :
    slash ∉ path.take n := by
  intro mem
  have before : path.take n = (path.takeWhile (· ≠ slash)).take n := by
    conv_lhs => rw [← List.takeWhile_append_dropWhile (p := (· ≠ slash)) (l := path)]
    exact List.take_append_of_le_length h
  rw [before] at mem
  have all := List.all_eq_true.mp (List.all_takeWhile (p := (· ≠ slash)) (l := path)) _ (List.mem_of_mem_take mem)
  simp at all

theorem findWild_found {wild : Option (Wild α)} (ih : ∀ w ∈ wild, ∀ t ∈ Wild.suffixes w, t.FindsFit)
    {path : List UInt8} (ne : path ≠ []) {m : Match α} (h : findWild path wild = some m) (regular : Prop) :
    Found (wildRoutes wild) (saneWild regular wild ∧ regular) path m := by
  cases wild with
  | none => cases h
  | some w =>
    cases w with
    | rest label leaf =>
      cases h
      exact ⟨[.rest label], List.mem_singleton_self _, .rest [] path ne, fun _ _ => nofun⟩
    | parameter label leaf suffixes =>
      simp only [findWild, Wild.find] at h
      split at h
      · cases h
      next some =>
      have pos : 0 < (path.takeWhile (· ≠ slash)).length := List.length_pos_iff.mpr (by simpa using some)
      have within : (path.takeWhile (· ≠ slash)).length ≤ path.length := (List.takeWhile_sublist _).length_le
      generalize hlength : (if (path.takeWhile (· ≠ slash)).length < path.length then
        (path.takeWhile (· ≠ slash)).length + 1 else path.length) = length at h
      have hle : length ≤ (path.takeWhile (· ≠ slash)).length + 1 := by
        rw [← hlength]
        split <;> omega
      cases hfound : findSuffix path length suffixes with
      | some found =>
        rw [hfound] at h
        obtain ⟨t, ht, shorter, rfl⟩ := findSuffix_eq_some hfound
        obtain ⟨m, hm, rfl⟩ := Option.map_eq_some_iff.mp h
        obtain ⟨ts, mem, fits, slashless⟩ := ih _ rfl t ht _ m hm (regular ∧ TextFirst t.label)
        have nonempty : path.take (length - t.label.length) ≠ [] := by
          rw [Ne, List.take_eq_nil_iff]
          rintro (zero | nil)
          · omega
          · exact ne nil
        have whole := fits.parameter _ nonempty
        rw [List.take_append_drop] at whole
        refine ⟨.parameter :: ts, ?_, whole, ?_⟩
        · refine mem_prefixed.mpr ⟨(ts, m.leaf), List.mem_append_right _ ?_, rfl⟩
          rw [suffixRoutes_eq]
          exact List.mem_flatMap.mpr ⟨t, ht, mem⟩
        · rintro ⟨sane, r⟩ spaced
          have suffix := saneSuffixes_iff.mp (saneWild_some.mp sane).2 t ht
          have text := suffix.text r mem spaced
          refine List.forall_mem_cons.mpr ⟨slash_notMem_takeWhile path ?_, slashless ⟨suffix.1, r, text⟩ spaced.2⟩
          obtain ⟨d, head, -⟩ := text
          have : 0 < t.label.length := List.length_pos_iff.mpr fun nil => by simp [nil] at head
          omega
      | none =>
        rw [hfound] at h
        simp only at h
        split at h
        · cases h
        obtain ⟨l, rfl, rfl⟩ := Option.map_eq_some_iff.mp h
        have last : path.length ≤ (path.takeWhile (· ≠ slash)).length := by omega
        have whole := Fits.nil.parameter path ne
        rw [List.append_nil] at whole
        refine ⟨[.parameter], mem_prefixed.mpr ⟨([], l), List.mem_append_left _ ?_, rfl⟩, whole, ?_⟩
        · exact List.mem_singleton_self _
        · intro _ _
          have bare := slash_notMem_takeWhile path last
          rw [List.take_length] at bare
          exact List.forall_mem_singleton.mpr bare

/-- **What is found.** A match that a search comes back with is of a route of the tree, and that route is the path, with
the values of the match for its parameters. -/
theorem find_found : ∀ t : Tree α, t.FindsFit := by
  refine Tree.induct ?_
  intro label priority value branches wild ihBranches ihWild path m h regular
  rw [Tree.find] at h
  cases hafter : after? (bytes label) path with
  | none => simp [hafter] at h
  | some rest =>
    obtain rfl := after?_eq_some.mp hafter
    rw [hafter] at h
    -- whatever is found below the text of the node is found at it
    have below : Found (leafRoutes value ++ branchRoutes branches ++ wildRoutes wild)
        (saneBranches regular branches ∧ saneWild regular wild ∧ regular) rest m := by
      cases rest with
      | nil =>
        obtain ⟨l, rfl, rfl⟩ := Option.map_eq_some_iff.mp h
        exact ⟨[], List.mem_append_left _ (List.mem_append_left _ (List.mem_singleton_self _)), .nil, fun _ _ => nofun⟩
      | cons b rest =>
        simp only at h
        cases hbranch : findBranch (b :: rest) branches with
        | some found =>
          rw [hbranch] at h
          cases h
          refine (findBranch_found ihBranches hbranch regular).mono (fun e he => ?_) fun hex => ⟨hex.1, hex.2.2⟩
          exact List.mem_append_left _ (List.mem_append_right _ he)
        | none =>
          rw [hbranch] at h
          refine (findWild_found ihWild (List.cons_ne_nil _ _) h regular).mono (fun e he => ?_) fun hex => hex.2
          exact List.mem_append_right _ he
    rw [Tree.routes]
    refine (below.literal (bytes label)).mono (fun _ he => he) ?_
    rintro ⟨⟨-, sane, saneWild⟩, r⟩
    exact ⟨sane, saneWild, r⟩

end JsonService.Route
