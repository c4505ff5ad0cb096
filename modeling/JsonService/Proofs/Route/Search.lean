import JsonService.Proofs.Route.Routes

/-!
# Search

A search through a tree finds the best of the routes that take the path, as if the routes were a plain list:
`takes` says whether one route takes a path, and `wins` which of two routes is to be preferred.

**Results.**
* `Tree.find_best`: the search finds a route that takes the path and wins against every other one that does,
  and nothing only if no route takes the path. Coming back from literal text that leads nowhere is part of it.
-/
namespace JsonService.Route

variable {α : Type}

/-- How a route takes a path, if it does. -/
def takes (leaf : Leaf α) : List Token → List UInt8 → Option (Match α)
  | [], [] => some { leaf := leaf, values := [] }
  | [], _ :: _ => none
  | .byte _ :: _, [] => none
  | .byte b :: ts, c :: path => if b = c then takes leaf ts path else none
  | .parameter :: ts, path =>
    let name := path.takeWhile (· ≠ slash)
    if name.isEmpty then none else (takes leaf ts (path.drop name.length)).map (·.cons name)
  | .rest label :: ts, path =>
    if ts = [] ∧ path ≠ [] then some { leaf := leaf, values := [], rest := some (catchAllName label, path) }
    else none

/-- How specific a token is, the most specific ones first. -/
def Token.rank : Token → Nat
  | .byte _ => 0
  | .parameter => 1
  | .rest _ => 2

/-- The route that is preferred: the one with the more specific token where the two part. -/
def wins : List Token → List Token → Prop
  | a :: as, b :: bs => if a = b then wins as bs else a.rank < b.rank
  | _, _ => False

/-- What a search through a list of routes should find: the best route that takes the path, if any does. -/
def Best (es : List (Entry α)) (path : List UInt8) : Option (Match α) → Prop
  | none => ∀ e ∈ es, takes e.2 e.1 path = none
  | some m => ∃ e ∈ es, takes e.2 e.1 path = some m ∧
      ∀ x ∈ es, (takes x.2 x.1 path).isSome → x = e ∨ wins e.1 x.1

/-! ## Taking a path -/

theorem after?_nil (path : List UInt8) : after? [] path = some path := by
  simp [after?]

theorem after?_cons (b : UInt8) (bs : List UInt8) (c : UInt8) (path : List UInt8) :
    after? (b :: bs) (c :: path) = if b = c then after? bs path else none := by
  by_cases h : b = c
  · simp [after?, h]
  · simp [after?, h]

theorem takes_literal (leaf : Leaf α) (bs : List UInt8) (ts : List Token) (path : List UInt8) :
    takes leaf (literal bs ++ ts) path = (after? bs path).bind (takes leaf ts) := by
  induction bs generalizing path with
  | nil => rw [after?_nil, literal_nil, List.nil_append, Option.bind_some]
  | cons b bs ih =>
    cases path with
    | nil => rfl
    | cons c path =>
      rw [after?_cons, literal_cons, List.cons_append, takes]
      split
      · exact ih path
      · rfl

theorem takes_byte {leaf : Leaf α} {ts : List Token} {path : List UInt8} {b : UInt8}
    (hts : ts.head? = some (.byte b)) (hpath : path.head? ≠ some b) : takes leaf ts path = none := by
  obtain ⟨ts, rfl⟩ := List.head?_eq_some_iff.mp hts
  cases path with
  | nil => rfl
  | cons c path =>
    have hne : b ≠ c := by
      intro heq
      subst heq
      exact hpath rfl
    rw [takes, if_neg hne]

theorem takes_nil {leaf : Leaf α} {ts : List Token} (h : ts ≠ []) : takes leaf ts [] = none := by
  match ts with
  | [] => exact absurd rfl h
  | .byte b :: ts => rfl
  | .parameter :: ts => rfl
  | .rest label :: ts =>
    rw [takes]
    simp

/-- Whatever a path is taken for, the route leads to the same. -/
theorem takes_leaf {leaf : Leaf α} {ts : List Token} {path : List UInt8} {m : Match α}
    (h : takes leaf ts path = some m) : m.leaf = leaf := by
  induction ts generalizing path m with
  | nil =>
    cases path with
    | nil =>
      cases h
      rfl
    | cons c path => cases h
  | cons t ts ih =>
    cases t with
    | byte b =>
      cases path with
      | nil => cases h
      | cons c path =>
        rw [takes] at h
        split at h
        · exact ih h
        · cases h
    | parameter =>
      simp only [takes] at h
      split at h
      · cases h
      · obtain ⟨m, hm, rfl⟩ := Option.map_eq_some_iff.mp h
        show m.leaf = leaf
        exact ih hm
    | rest label =>
      rw [takes] at h
      split at h
      · cases h
        rfl
      · cases h

theorem wins_append (ts : List Token) {as bs : List Token} : wins (ts ++ as) (ts ++ bs) ↔ wins as bs := by
  induction ts with
  | nil => rfl
  | cons t ts ih => rw [List.cons_append, List.cons_append, wins, if_pos rfl, ih]

theorem wins_asymm {as bs : List Token} (h : wins as bs) : ¬ wins bs as := by
  induction as generalizing bs with
  | nil => cases h
  | cons a as ih =>
    cases bs with
    | nil => cases h
    | cons b bs =>
      rw [wins] at h ⊢
      by_cases hab : a = b
      · rw [if_pos hab] at h
        rw [if_pos hab.symm]
        exact ih h
      · rw [if_neg hab] at h
        rw [if_neg (Ne.symm hab)]
        exact Nat.not_lt.mpr (Nat.le_of_lt h)

/-! ## Lists of routes -/

section
variable {es es' : List (Entry α)} {path rest : List UInt8} {m m' : Option (Match α)}

theorem best_nil (path : List UInt8) : Best ([] : List (Entry α)) path none := nofun

theorem Best.prefixed (ts : List Token) (path : List UInt8) (g : Match α → Match α)
    (htakes : ∀ e ∈ es, takes e.2 (ts ++ e.1) path = (takes e.2 e.1 rest).map g) (h : Best es rest m) :
    Best (prefixed ts es) path (m.map g) := by
  cases m with
  | none =>
    intro x hx
    obtain ⟨e, he, rfl⟩ := mem_prefixed.mp hx
    rw [htakes e he, h e he]
    rfl
  | some m =>
    obtain ⟨e, he, hm, hbest⟩ := h
    refine ⟨(ts ++ e.1, e.2), mem_prefixed.mpr ⟨e, he, rfl⟩, ?_, ?_⟩
    · rw [htakes e he, hm]
      rfl
    · intro x hx hsome
      obtain ⟨y, hy, rfl⟩ := mem_prefixed.mp hx
      rw [htakes y hy, Option.isSome_map] at hsome
      rcases hbest y hy hsome with rfl | hwins
      · exact Or.inl rfl
      · exact Or.inr ((wins_append ts).mpr hwins)

theorem Best.append (h : Best es path m) (h' : Best es' path m')
    (hwins : ∀ e ∈ es, ∀ x ∈ es', (takes e.2 e.1 path).isSome → (takes x.2 x.1 path).isSome → wins e.1 x.1) :
    Best (es ++ es') path (m.or m') := by
  cases m with
  | some m =>
    obtain ⟨e, he, hm, hbest⟩ := h
    refine ⟨e, List.mem_append_left _ he, hm, ?_⟩
    intro x hx hsome
    rcases List.mem_append.mp hx with hx | hx
    · exact hbest x hx hsome
    · right
      refine hwins e he x hx ?_ hsome
      rw [hm]
      rfl
  | none =>
    cases m' with
    | none =>
      intro x hx
      rcases List.mem_append.mp hx with hx | hx
      · exact h x hx
      · exact h' x hx
    | some m' =>
      obtain ⟨e, he, hm, hbest⟩ := h'
      refine ⟨e, List.mem_append_right _ he, hm, ?_⟩
      intro x hx hsome
      rcases List.mem_append.mp hx with hx | hx
      · rw [h x hx] at hsome
        cases hsome
      · exact hbest x hx hsome

/-- Routes that do not take the path do not matter. -/
theorem Best.append_none (h : Best es path m) (h' : Best es' path none) : Best (es ++ es') path m := by
  have happend := h.append h' (by
    intro e _ x hx _ hsome
    rw [h' x hx] at hsome
    cases hsome)
  rwa [Option.or_none] at happend

theorem Best.none_append (h : Best es path none) (h' : Best es' path m) : Best (es ++ es') path m := by
  have happend := h.append h' (by
    intro e he x _ hsome
    rw [h e he] at hsome
    cases hsome)
  rwa [Option.none_or] at happend

theorem best_beginWith {b : UInt8} (h : BeginWith b es) (hpath : path.head? ≠ some b) : Best es path none :=
  fun e he => takes_byte (h e he) hpath

theorem Best.unique (h : Best es path m) (h' : Best es' path m') (hsame : ∀ e, e ∈ es ↔ e ∈ es') : m = m' := by
  cases m with
  | none =>
    cases m' with
    | none => rfl
    | some m' =>
      obtain ⟨e, he, hm, -⟩ := h'
      rw [h e ((hsame e).mpr he)] at hm
      cases hm
  | some m =>
    obtain ⟨e, he, hm, hbest⟩ := h
    cases m' with
    | none =>
      rw [h' e ((hsame e).mp he)] at hm
      cases hm
    | some m' =>
      obtain ⟨e', he', hm', hbest'⟩ := h'
      have heq : e = e' := by
        rcases hbest e' ((hsame e').mpr he') (by rw [hm']; rfl) with heq | hwins
        · exact heq.symm
        rcases hbest' e ((hsame e).mp he) (by rw [hm]; rfl) with heq | hwins'
        · exact heq
        exact absurd hwins' (wins_asymm hwins)
      rw [← hm, ← hm', heq]

theorem best_leaf_nil (leaf : Option (Leaf α)) :
    Best (leafRoutes leaf) [] (leaf.map fun l => { leaf := l, values := [] }) := by
  cases leaf with
  | none => exact best_nil []
  | some l =>
    refine ⟨([], l), List.mem_singleton_self _, rfl, ?_⟩
    intro x hx _
    exact Or.inl (List.mem_singleton.mp hx)

theorem best_leaf_cons (leaf : Option (Leaf α)) (b : UInt8) (path : List UInt8) :
    Best (leafRoutes leaf) (b :: path) none := by
  intro x hx
  obtain ⟨l, -, rfl⟩ := mem_leafRoutes.mp hx
  rfl

end

/-! ## Parameters -/

/-- A path up to its first slash, and from there on. -/
theorem exists_segment (path : List UInt8) : ∃ rest, path = path.takeWhile (· ≠ slash) ++ rest ∧
    (rest = [] ∨ ∃ more, rest = slash :: more) := by
  induction path with
  | nil => exact ⟨[], rfl, Or.inl rfl⟩
  | cons b path ih =>
    by_cases h : b = slash
    · subst h
      exact ⟨slash :: path, by simp, Or.inr ⟨path, rfl⟩⟩
    · obtain ⟨rest, hpath, hrest⟩ := ih
      refine ⟨rest, ?_, hrest⟩
      rw [List.takeWhile_cons_of_pos (by simpa using h), List.cons_append, ← hpath]

/-- What a parameter stands for in a path: everything up to the first slash, of which there is some. -/
theorem takes_parameter (leaf : Leaf α) (ts : List Token) {name rest : List UInt8} (hne : name ≠ [])
    (hname : (name ++ rest).takeWhile (· ≠ slash) = name) :
    takes leaf (.parameter :: ts) (name ++ rest) = (takes leaf ts rest).map (·.cons name) := by
  have hempty : name.isEmpty = false := by simpa using hne
  rw [takes]
  simp only [hname, hempty, List.drop_left' rfl, Bool.false_eq_true, if_false]

section
variable {k : Nat} {leaf : Option (Leaf α)} {suffixes : List (Tree α)} {name : List UInt8}

/-- What follows a parameter is found where the segment of the path ends, if a slash ends it. -/
theorem find_parameter_slash (label : List Cell) (hv : validSuffixes k suffixes) (hne : name ≠ [])
    (more : List UInt8) (hname : (name ++ slash :: more).takeWhile (· ≠ slash) = name) :
    (Wild.parameter label leaf suffixes).find (name ++ slash :: more) =
      (suffixes.head?.bind (Tree.find (slash :: more))).map (·.cons name) := by
  have hempty : name.isEmpty = false := by simpa using hne
  have hlt : name.length < (name ++ slash :: more).length := by
    rw [List.length_append, List.length_cons]
    omega
  simp only [Wild.find, hname, hempty, Bool.false_eq_true, if_false, hlt, if_true]
  cases suffixes with
  | nil => rfl
  | cons t rest =>
    obtain ⟨⟨hlabel, -⟩, rfl⟩ := hv
    have hpos := List.length_pos_iff.mpr hne
    have hsegment : ((name ++ slash :: more).take (name.length + 1)).drop name.length = [slash] := by
      rw [List.drop_take, List.drop_left' rfl]
      simp
    have hstart : name.length + 1 - (plain [slash]).length = name.length := by
      rw [plain_length, List.length_singleton]
      omega
    simp only [findSuffix, hlabel, hstart, hsegment, bytes_plain, List.drop_left' rfl, List.take_left' rfl]
    rw [if_pos ⟨by rw [plain_length, List.length_singleton]; omega, trivial⟩]
    rfl

/-- Where no slash ends it, the route has to end too. -/
theorem find_parameter_end (label : List Cell) (hv : validSuffixes k suffixes) (hne : name ≠ [])
    (hname : name.takeWhile (· ≠ slash) = name) : (Wild.parameter label leaf suffixes).find name =
      (leaf.map fun l => ({ leaf := l, values := [] } : Match α)).map (·.cons name) := by
  have hempty : name.isEmpty = false := by simpa using hne
  have hnone : findSuffix name name.length suffixes = none := by
    cases suffixes with
    | nil => rfl
    | cons t rest =>
      obtain ⟨⟨hlabel, -⟩, rfl⟩ := hv
      have hslash : ¬ (name.take name.length).drop (name.length - t.label.length) = bytes t.label := by
        intro h
        rw [hlabel, bytes_plain, List.take_length] at h
        have hmem : slash ∈ name := List.mem_of_mem_drop (h ▸ List.mem_singleton_self slash)
        rw [← hname] at hmem
        exact absurd (List.all_eq_true.mp List.all_takeWhile slash hmem) (by decide)
      simp only [findSuffix, hslash, and_false, if_false]
  simp only [Wild.find, hname, hempty, Bool.false_eq_true, if_false, Nat.lt_irrefl, hnone]
  cases leaf <;> rfl

end

/-- Literal text is preferred to a parameter and to a catch-all. -/
theorem branch_wins_wild {k : Nat} {branches : List (UInt8 × Tree α)} {wild : Option (Wild α)} {e x : Entry α}
    (hv : validBranches k branches) (he : e ∈ branchRoutes branches) (hx : x ∈ wildRoutes wild) :
    wins e.1 x.1 := by
  obtain ⟨c, -, hc⟩ := branchRoutes_head hv he
  obtain ⟨t, ht, hshape⟩ := wildRoutes_head hx
  obtain ⟨es, hes⟩ := List.head?_eq_some_iff.mp hc
  obtain ⟨xs, hxs⟩ := List.head?_eq_some_iff.mp ht
  rw [hes, hxs, wins]
  cases t with
  | byte b => exact absurd rfl (hshape b)
  | parameter =>
    rw [if_neg nofun]
    exact Nat.zero_lt_one
  | rest label =>
    rw [if_neg nofun]
    exact Nat.zero_lt_two

/-! ## Search through a tree -/

mutual

/-- A search finds the best route that takes the path, and none only if none takes it. -/
theorem Tree.find_best : ∀ (t : Tree α) (k : Nat) (path : List UInt8), t.Valid k →
    Best t.routes path (t.find path)
  | .node label priority leaf branches wild, k, path, hv => by
    obtain ⟨⟨hlabel, -⟩, hbranches, hwild⟩ := hv
    obtain ⟨bs, rfl⟩ : ∃ bs, label = plain bs := ⟨_, hlabel⟩
    rw [routes_node, Tree.find, bytes_plain]
    cases hafter : after? bs path with
    | none =>
      intro x hx
      obtain ⟨e, -, rfl⟩ := mem_prefixed.mp hx
      rw [takes_literal, hafter, Option.bind_none]
    | some rest =>
      have within : ∀ {es : List (Entry α)} {m}, Best es rest m → Best (prefixed (literal bs) es) path m := by
        intro es m h
        have hprefixed := h.prefixed (literal bs) path id (by
          intro e _
          rw [takes_literal, hafter, Option.bind_some, Option.map_id_fun, id])
        rwa [Option.map_id_fun, id] at hprefixed
      cases rest with
      | nil =>
        apply within
        refine ((best_leaf_nil leaf).append_none ?_).append_none ?_
        · intro x hx
          obtain ⟨c, -, hhead⟩ := branchRoutes_head hbranches hx
          exact takes_nil (by intro h; rw [h] at hhead; cases hhead)
        · intro x hx
          obtain ⟨t, hhead, -⟩ := wildRoutes_head hx
          exact takes_nil (by intro h; rw [h] at hhead; cases hhead)
      | cons b rest =>
        apply within
        have hbranch := findBranch_best branches k (b :: rest) hbranches
        have hrest := findWild_best wild k b rest hwild
        have hboth := (best_leaf_cons leaf b rest).none_append (hbranch.append hrest fun e he x hx _ _ =>
          branch_wins_wild hbranches he hx)
        rw [List.append_assoc]
        cases hfound : findBranch (b :: rest) branches with
        | none => simpa [hfound] using hboth
        | some m => simpa [hfound] using hboth

theorem findBranch_best : ∀ (branches : List (UInt8 × Tree α)) (k : Nat) (path : List UInt8),
    validBranches k branches → Best (branchRoutes branches) path (findBranch path branches)
  | [], _, path, _ => best_nil path
  | (key, t) :: rest, k, path, hv => by
    obtain ⟨⟨ht, hbegin⟩, hne, hrest⟩ := hv
    rw [branchRoutes, findBranch]
    by_cases hkey : some key = path.head?
    · rw [if_pos hkey]
      refine (Tree.find_best t k path ht).append_none ?_
      intro x hx
      obtain ⟨c, hc, hhead⟩ := branchRoutes_head hrest hx
      refine takes_byte hhead ?_
      rw [← hkey]
      intro h
      exact hne c hc (Option.some.inj h).symm
    · rw [if_neg hkey]
      exact (best_beginWith hbegin (Ne.symm hkey)).none_append (findBranch_best rest k path hrest)

theorem findWild_best : ∀ (wild : Option (Wild α)) (k : Nat) (b : UInt8) (path : List UInt8), validWild k wild →
    Best (wildRoutes wild) (b :: path) (findWild (b :: path) wild)
  | none, _, b, path, _ => best_nil (b :: path)
  | some w, k, b, path, hv => by
    rw [wildRoutes, findWild]
    exact Wild.find_best w k b path (validWild_some.mp hv)

theorem Wild.find_best : ∀ (w : Wild α) (k : Nat) (b : UInt8) (path : List UInt8), w.Valid k →
    Best w.routes (b :: path) (w.find (b :: path))
  | .rest label leaf, _, b, path, _ => by
    refine ⟨([.rest label], leaf), List.mem_singleton_self _, ?_, ?_⟩
    · simp [takes]
    · intro x hx _
      exact Or.inl (List.mem_singleton.mp hx)
  | .parameter label leaf suffixes, k, b, path, hv => by
    obtain ⟨-, hsuffixes⟩ := hv
    generalize b :: path = path
    obtain ⟨rest, hpath, hrest⟩ := exists_segment path
    generalize hname : path.takeWhile (· ≠ slash) = name at hpath
    subst hpath
    by_cases hne : name = []
    · -- a parameter never stands for nothing
      subst hne
      have hfind : (Wild.parameter label leaf suffixes).find ([] ++ rest) = none := by
        simp only [Wild.find, hname, List.isEmpty_nil, if_true]
      rw [hfind]
      intro x hx
      obtain ⟨e, -, rfl⟩ := mem_prefixed.mp hx
      simp only [List.singleton_append, takes, hname, List.isEmpty_nil, if_true]
    have within : ∀ {m}, Best (leafRoutes leaf ++ suffixRoutes suffixes) rest m →
        Best (Wild.parameter label leaf suffixes).routes (name ++ rest) (m.map (·.cons name)) := by
      intro m h
      exact h.prefixed [.parameter] (name ++ rest) (·.cons name) fun e _ => takes_parameter e.2 e.1 hne hname
    rcases hrest with rfl | ⟨more, rfl⟩
    · rw [List.append_nil] at hname within ⊢
      rw [find_parameter_end label hsuffixes hne hname]
      apply within
      refine (best_leaf_nil leaf).append_none ?_
      intro x hx
      exact takes_byte (suffixRoutes_head hsuffixes hx) nofun
    · rw [find_parameter_slash label hsuffixes hne more hname]
      apply within
      exact (best_leaf_cons leaf slash more).none_append (findFirst_best suffixes (k + 1) (slash :: more) hsuffixes)

theorem findFirst_best : ∀ (suffixes : List (Tree α)) (k : Nat) (path : List UInt8), validSuffixes k suffixes →
    Best (suffixRoutes suffixes) path (suffixes.head?.bind (Tree.find path))
  | [], _, path, _ => best_nil path
  | t :: rest, k, path, hv => by
    obtain ⟨⟨-, ht⟩, rfl⟩ := hv
    rw [suffixRoutes, suffixRoutes, List.append_nil]
    exact Tree.find_best t k path ht

end

end JsonService.Route
