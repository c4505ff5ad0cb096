import JsonService.Proofs.Route.Routes

/-!
# New nodes

A node that is grown for a route is valid and holds that route, and no route if there was a fault on the way.

**Results.**
* `sproutWild_parameter`, `sproutWild_rest`: what a parameter and a catch-all grow.
* `sprout_sprouts`, `sproutSuffix_sprouts`: by induction on the fuel, of which the length of the route is enough.
* `growWild_grows`: so a node for any text holds the one route that it was grown for.
-/
namespace JsonService.Route

variable {α : Type}

/-- A new node is valid and holds one route, or none if there was a fault. -/
structure Sprouts (k : Nat) (e : Entry α) (r : Outcome × Tree α) : Prop where
  valid : r.2.Valid k
  grows : Grows [] r.2.routes e r.1

theorem plainLabel_plain {bs : List UInt8} (hb : Braceless bs) : PlainLabel (plain bs) :=
  ⟨by rw [bytes_plain], by rwa [bytes_plain]⟩

theorem braceless_slash : Braceless [slash] := by
  intro b hb
  rw [List.mem_singleton.mp hb]
  decide

theorem braceless_nil : Braceless [] := by
  simp [Braceless]

theorem valid_node {k : Nat} {bs : List UInt8} {priority : Nat} {leaf : Option (Leaf α)}
    {branches : List (UInt8 × Tree α)} {wild : Option (Wild α)} (hb : Braceless bs)
    (hbranches : validBranches k branches) (hwild : validWild k wild) :
    (Tree.node (plain bs) priority leaf branches wild).Valid k :=
  ⟨plainLabel_plain hb, hbranches, hwild⟩

theorem sprouts_failed (k priority : Nat) {bs : List UInt8} (hb : Braceless bs) (e : Entry α) (fault : Fault) :
    Sprouts k e (.error fault, .node (plain bs) priority none [] none) where
  valid := valid_node hb (validBranches_nil k) (validWild_none k)
  grows := by
    simp only [routes_node, leafRoutes_none, branchRoutes, wildRoutes, List.append_nil, prefixed_nil]
    exact Grows.refused [] e fault

theorem sprouts_leaf (k priority : Nat) {bs : List UInt8} (hb : Braceless bs) (leaf : Leaf α) :
    Sprouts k (literal bs, leaf) (.ok (), .node (plain bs) priority (some leaf) [] none) where
  valid := valid_node hb (validBranches_nil k) (validWild_none k)
  grows := by
    have h := (Grows.sprouted ([], leaf)).prefixed (literal bs)
    simpa [routes_node, branchRoutes, wildRoutes] using h

theorem sprouts_branch {k : Nat} {bs : List UInt8} (hb : Braceless bs) (priority : Nat) {b : UInt8}
    {ts : List Token} {leaf : Leaf α} {outcome : Outcome} {t : Tree α}
    (ht : Sprouts k (.byte b :: ts, leaf) (outcome, t)) :
    Sprouts k (literal bs ++ .byte b :: ts, leaf) (outcome, .node (plain bs) priority none [(b, t)] none) where
  valid := by
    refine valid_node hb (validBranches_iff.mpr ⟨?_, by simp⟩) (validWild_none k)
    simp only [List.mem_singleton, forall_eq]
    exact ⟨ht.valid, ht.grows.beginWith nofun rfl⟩
  grows := by
    have h := ht.grows.prefixed (literal bs)
    simpa [routes_node, branchRoutes, wildRoutes] using h

theorem sprouts_wild {k : Nat} {bs : List UInt8} (hb : Braceless bs) (priority : Nat) {outcome : Outcome}
    {w : Wild α} {e : Entry α} (hw : w.Valid k) (hg : Grows [] w.routes e outcome) :
    Sprouts k (literal bs ++ e.1, e.2) (outcome, .node (plain bs) priority none [] (some w)) where
  valid := valid_node hb (validBranches_nil k) (validWild_some.mpr hw)
  grows := by
    simp only [routes_node, leafRoutes_none, branchRoutes, wildRoutes, List.nil_append]
    exact hg.prefixed (literal bs)

theorem sproutWild_parameter (grow : List Cell → List Cell → Outcome × Tree α) (leaf : Leaf α) {k : Nat}
    {ts : List Token} (hp : Proper k (.parameter :: ts))
    (hgrow : ∀ ts', ts = .byte slash :: ts' →
      (grow (plain [slash]) (write (k + 1) ts')).2.label = plain [slash] ∧
        Sprouts (k + 1) (ts, leaf) (grow (plain [slash]) (write (k + 1) ts'))) :
    ∃ outcome w, sproutWild grow leaf 3 (write k (.parameter :: ts)) = (outcome, some w) ∧ w.Valid k ∧
      Grows [] w.routes (.parameter :: ts, leaf) outcome := by
  obtain ⟨hk, hstart, hts⟩ := hp
  have hstar : (bytes (write k (.parameter :: ts)))[1]? ≠ some star := by
    simp [write, parameterLabel, bytes, (letter_ne hk).2.1]
  rcases hstart with rfl | hstart
  · refine ⟨.ok (), .parameter (parameterLabel k) (some leaf) [], ?_, ⟨⟨hk, rfl⟩, trivial⟩, ?_⟩
    · have hlen := segmentLength_parameter hk
      simp only [write, List.append_nil] at hstar ⊢
      simp only [sproutWild, if_neg hstar, hlen]
      rfl
    · exact (Grows.sprouted ([], leaf)).prefixed [.parameter]
  · obtain ⟨ts', rfl⟩ := List.head?_eq_some_iff.mp hstart
    obtain ⟨hlabel, hvalid, hg⟩ := hgrow ts' rfl
    refine ⟨(grow (plain [slash]) (write (k + 1) ts')).1,
      .parameter (parameterLabel k) none [(grow (plain [slash]) (write (k + 1) ts')).2], ?_,
      ⟨⟨hk, rfl⟩, ⟨hlabel, hvalid⟩, rfl⟩, ?_⟩
    · have hlen := segmentLength_parameter_slash hk (write (k + 1) ts')
      simp only [write] at hstar ⊢
      simp only [sproutWild, if_neg hstar, hlen]
      rfl
    · have h := hg.prefixed [.parameter]
      simpa [Wild.routes, suffixRoutes] using h

theorem sproutWild_rest (grow : List Cell → List Cell → Outcome × Tree α) (leaf : Leaf α) {k : Nat}
    {label : List Cell} {ts : List Token} (hp : Proper k (.rest label :: ts)) :
    sproutWild grow leaf label.length (write k (.rest label :: ts)) =
      if ts = [] then (.ok (), some (.rest label leaf)) else (.error .catchAll, none) := by
  obtain ⟨hl, hts⟩ := hp
  have hstar : (bytes (label ++ write k ts))[1]? = some star := by
    have h := hl.star
    have hlt : 1 < (bytes label).length := (List.getElem?_eq_some_iff.mp h).1
    have happend : bytes (label ++ write k ts) = bytes label ++ bytes (write k ts) := List.map_append
    rw [happend, List.getElem?_append_left hlt]
    exact h
  rw [write, sproutWild, if_pos hstar]
  by_cases h : ts = []
  · subst h
    simp [write]
  · have hne := write_ne_nil hts h
    have hlen : ¬ label.length = (label ++ write k ts).length := by
      rw [List.length_append]
      have := List.length_pos_iff.mpr hne
      omega
    rw [if_neg hlen, if_neg h]

/-! The first parameter of a written route is its first token that is no byte. -/

theorem write_bytes (k : Nat) (bs : List UInt8) : write k (literal bs) = plain bs := by
  have h := write_literal k bs []
  rwa [List.append_nil, write, List.append_nil] at h

theorem findParameter_bytes {bs : List UInt8} (hb : Braceless bs) : findParameter (plain bs) = .ok none := by
  have h := findParameter_plain hb []
  rwa [List.append_nil] at h

theorem findParameter_write_parameter {k : Nat} {bs : List UInt8} (hb : Braceless bs) {ts : List Token}
    (hk : k < mostParameters) :
    findParameter (write k (literal bs ++ .parameter :: ts)) = .ok (some (bs.length, 3)) := by
  rw [write_literal, findParameter_plain hb, write, findParameter_parameter hk]
  simp [Except.map]

theorem findParameter_write_rest {k : Nat} {bs : List UInt8} (hb : Braceless bs) {label : List Cell}
    {ts : List Token} (hl : RestLabel label) :
    findParameter (write k (literal bs ++ .rest label :: ts)) = .ok (some (bs.length, label.length)) := by
  rw [write_literal, findParameter_plain hb, write, hl.found]
  simp [Except.map]

theorem drop_write_literal (k : Nat) (bs : List UInt8) (ts : List Token) :
    (write k (literal bs ++ ts)).drop bs.length = write k ts := by
  rw [write_literal, List.drop_left' (plain_length bs)]

theorem take_write_literal (k : Nat) (bs : List UInt8) (ts : List Token) :
    (write k (literal bs ++ ts)).take bs.length = plain bs := by
  rw [write_literal, List.take_left' (plain_length bs)]

mutual

/-- A new node holds the one route that it was grown for. -/
theorem sprout_sprouts (leaf : Leaf α) : ∀ (fuel k priority : Nat) (ts : List Token), ts ≠ [] → Proper k ts →
    (write k ts).length ≤ fuel → Sprouts k (ts, leaf) (sprout leaf priority fuel (write k ts))
  | 0, k, _, ts, hne, hp, hlen => by
    have := List.length_pos_iff.mpr (write_ne_nil hp hne)
    omega
  | fuel + 1, k, priority, ts, hne, hp, hlen => by
    obtain ⟨bs, tail, rfl, htail⟩ := exists_literal ts
    obtain ⟨hb, hp⟩ := proper_literal.mp hp
    have hdrop := drop_write_literal k bs tail
    have htake := take_write_literal k bs tail
    rw [write_literal, List.length_append] at hlen
    match tail with
    | [] =>
      rw [List.append_nil, write_bytes]
      simp only [sprout, findParameter_bytes hb]
      exact sprouts_leaf k priority hb leaf
    | .byte b :: more => exact absurd rfl (htail b more)
    | .parameter :: more =>
      obtain ⟨outcome, w, heq, hvalid, hg⟩ := sproutWild_parameter (sproutSuffix leaf fuel) leaf hp (by
          intro more heq
          subst heq
          apply sproutSuffix_sprouts leaf fuel (k + 1) more hp.2.2.2
          simp only [write, parameterLabel, List.length_append, List.length_cons] at hlen
          omega)
      have hgrown : sprout leaf priority (fuel + 1) (write k (literal bs ++ .parameter :: more)) =
          (outcome, .node (plain bs) priority none [] (some w)) := by
        simp only [sprout, findParameter_write_parameter hb hp.1, hdrop, htake, heq]
      rw [hgrown]
      exact sprouts_wild hb priority hvalid hg
    | .rest label :: more =>
      have heq := sproutWild_rest (sproutSuffix leaf fuel) leaf hp
      simp only [sprout, findParameter_write_rest hb hp.1, hdrop, htake, heq]
      by_cases hmore : more = []
      · subst hmore
        exact sprouts_wild hb priority (valid_rest k label leaf) (Grows.sprouted ([.rest label], leaf))
      · rw [if_neg hmore]
        exact sprouts_failed k priority braceless_nil _ .catchAll

theorem sproutSuffix_sprouts (leaf : Leaf α) : ∀ (fuel k : Nat) (ts : List Token), Proper k ts →
    (write k ts).length < fuel →
    (sproutSuffix leaf fuel (plain [slash]) (write k ts)).2.label = plain [slash] ∧
      Sprouts k (.byte slash :: ts, leaf) (sproutSuffix leaf fuel (plain [slash]) (write k ts))
  | 0, _, _, _, hlen => absurd hlen (Nat.not_lt_zero _)
  | fuel + 1, k, ts, hp, hlen => by
    match ts with
    | [] =>
      exact ⟨rfl, sprouts_leaf k 1 braceless_slash leaf⟩
    | .byte b :: ts =>
      have hopens : (⟨b, false⟩ : Cell).opens = false := by simp [Cell.opens, hp.1.1]
      have h := sprout_sprouts leaf fuel k 1 (.byte b :: ts) (List.cons_ne_nil _ _) hp (by omega)
      simp only [write, sproutSuffix, hopens]
      exact ⟨rfl, sprouts_branch braceless_slash 1 h⟩
    | .parameter :: ts =>
      obtain ⟨outcome, w, heq, hvalid, hg⟩ := sproutWild_parameter (sproutSuffix leaf fuel) leaf hp (by
        intro more heq
        subst heq
        apply sproutSuffix_sprouts leaf fuel (k + 1) more hp.2.2.2
        simp only [write, parameterLabel, List.length_append, List.length_cons] at hlen
        omega)
      have hfind := findParameter_parameter hp.1 (write (k + 1) ts)
      have hgrown : sproutSuffix leaf (fuel + 1) (plain [slash]) (write k (.parameter :: ts)) =
          (outcome, .node (plain [slash]) 1 none [] (some w)) := by
        simp only [write, parameterLabel, List.cons_append, List.nil_append] at heq hfind ⊢
        simp only [sproutSuffix, hfind, heq]
        rfl
      rw [hgrown]
      exact ⟨rfl, sprouts_wild braceless_slash 1 hvalid hg⟩
    | .rest label :: ts =>
      have heq := sproutWild_rest (sproutSuffix leaf fuel) leaf hp
      have hfind := hp.1.found (write k ts)
      obtain ⟨cs, rfl⟩ : ∃ cs, label = ⟨openBrace, false⟩ :: cs := List.head?_eq_some_iff.mp hp.1.opens
      simp only [write, List.cons_append] at heq hfind ⊢
      simp only [sproutSuffix, hfind, heq]
      by_cases hts : ts = []
      · subst hts
        exact ⟨rfl, sprouts_wild braceless_slash 1 (valid_rest k _ leaf)
          (Grows.sprouted ([.rest (⟨openBrace, false⟩ :: cs)], leaf))⟩
      · rw [if_neg hts]
        exact ⟨rfl, sprouts_failed k 1 braceless_slash _ .catchAll⟩

end

theorem growWild_grows (leaf : Leaf α) {k : Nat} {ts : List Token} (hp : Proper k ts) (hne : ts ≠ [])
    (hbyte : ∀ b more, ts ≠ .byte b :: more) :
    validWild k (growWild leaf (write k ts)).2 ∧
      Grows [] (wildRoutes (growWild leaf (write k ts)).2) (ts, leaf) (growWild leaf (write k ts)).1 := by
  match ts with
  | [] => exact absurd rfl hne
  | .byte b :: more => exact absurd rfl (hbyte b more)
  | .parameter :: ts =>
    obtain ⟨outcome, w, heq, hvalid, hg⟩ :=
      sproutWild_parameter (sproutSuffix leaf ((write k (.parameter :: ts)).length + 1)) leaf hp (by
        intro more heq
        subst heq
        apply sproutSuffix_sprouts leaf _ (k + 1) more hp.2.2.2
        simp only [write, List.length_append, List.length_cons]
        omega)
    have hfind : findParameter (write k (.parameter :: ts)) = .ok (some (0, 3)) :=
      findParameter_parameter hp.1 (write (k + 1) ts)
    simp only [growWild, hfind, heq]
    exact ⟨validWild_some.mpr hvalid, hg⟩
  | .rest label :: ts =>
    have heq := sproutWild_rest (sproutSuffix leaf ((write k (.rest label :: ts)).length + 1)) leaf hp
    have hfind : findParameter (write k (.rest label :: ts)) = .ok (some (0, label.length)) :=
      hp.1.found (write k ts)
    simp only [growWild, hfind, heq]
    by_cases hts : ts = []
    · subst hts
      exact ⟨validWild_some.mpr (valid_rest k label leaf), Grows.sprouted ([.rest label], leaf)⟩
    · rw [if_neg hts]
      exact ⟨validWild_none k, Grows.refused [] _ .catchAll⟩

end JsonService.Route
