import JsonService.Proofs.Route.Growth

/-!
# Insertion

An insertion leaves a valid tree. If it succeeds, it has added its route, of a shape that was new; if it fails,
the tree holds the routes that it held, whatever nodes were left behind.

A node whose text the route leaves is first split where it does (`insert_split`); insertion then goes on at the
upper part as at any node whose text the route begins with (`insert_node`).

**Results.**
* `Tree.insert_grows`: by induction on the tree, below any number of parameters.
* `Tree.add_grows`: so for a tree of routes that begin with a slash, which may be empty.
-/
namespace JsonService.Route

variable {α : Type}

/-! ## Branches -/

section
variable {k : Nat} {b : UInt8} {ts : List Token} {leaf : Leaf α} {outcome : Outcome} {t t' : Tree α}
  {before rest bs : List (UInt8 × Tree α)}

theorem promote_grows (hv : validBranches k (before ++ (b, t) :: rest)) (ht : t'.Valid k)
    (hg : Grows t.routes t'.routes (.byte b :: ts, leaf) outcome) :
    validBranches k (promote before (b, t') rest) ∧
      Grows (branchRoutes (before ++ (b, t) :: rest)) (branchRoutes (promote before (b, t') rest))
        (.byte b :: ts, leaf) outcome := by
  have hperm : (promote before (b, t') rest).Perm ((b, t') :: (before ++ rest)) :=
    (promote_perm before (b, t') rest).trans List.perm_middle
  have hperm' : (before ++ (b, t) :: rest).Perm ((b, t) :: (before ++ rest)) := List.perm_middle
  have hv := (validBranches_perm hperm').mp hv
  obtain ⟨⟨-, hbegin⟩, hne, hothers⟩ := hv
  constructor
  · exact (validBranches_perm hperm).mpr ⟨⟨ht, hg.beginWith hbegin rfl⟩, hne, hothers⟩
  · have hamong := hg.among [] (branchRoutes (before ++ rest)) (by
      intro x hx
      obtain ⟨c, hc, hhead⟩ := branchRoutes_head hothers hx
      rw [hhead]
      simpa [Token.shape] using hne c hc)
    exact hamong.congr (fun x => (branchRoutes_perm hperm').mem_iff) (fun x => (branchRoutes_perm hperm).mem_iff)

theorem addBranch_grows (hv : validBranches k bs) (hnew : ∀ c ∈ bs, c.1 ≠ b)
    (ht : Sprouts k (.byte b :: ts, leaf) (outcome, t)) :
    validBranches k (addBranch b t bs) ∧
      Grows (branchRoutes bs) (branchRoutes (addBranch b t bs)) (.byte b :: ts, leaf) outcome := by
  have hperm := addBranch_perm b t bs
  constructor
  · exact (validBranches_perm hperm).mpr ⟨⟨ht.valid, ht.grows.beginWith nofun rfl⟩, hnew, hv⟩
  · have hamong := ht.grows.among [] (branchRoutes bs) (by
      intro x hx
      obtain ⟨c, hc, hhead⟩ := branchRoutes_head hv hx
      rw [hhead]
      simpa [Token.shape] using hnew c hc)
    exact hamong.congr (fun x => Iff.rfl) (fun x => (branchRoutes_perm hperm).mem_iff)

end

/-! ## Contents of a node -/

section
variable {k : Nat} {ts : List Token} {e : Entry α} {leaf : Leaf α} {outcome : Outcome}
  {value : Option (Leaf α)} {branches branches' : List (UInt8 × Tree α)} {wild wild' : Option (Wild α)}

theorem contents_grow_leaf (hv : validBranches k branches) :
    Grows (leafRoutes none ++ branchRoutes branches ++ wildRoutes wild)
      (leafRoutes (some leaf) ++ branchRoutes branches ++ wildRoutes wild) ([], leaf) (.ok ()) := by
  have hamong := (Grows.sprouted ([], leaf)).among [] (branchRoutes branches ++ wildRoutes wild) (by
    intro x hx
    rw [List.nil_append] at hx
    rcases List.mem_append.mp hx with hx | hx
    · obtain ⟨c, -, hhead⟩ := branchRoutes_head hv hx
      simp [hhead]
    · obtain ⟨t, hhead, -⟩ := wildRoutes_head hx
      simp [hhead])
  simpa using hamong

theorem contents_grow_branches {b : UInt8} (hg : Grows (branchRoutes branches) (branchRoutes branches')
    (.byte b :: ts, leaf) outcome) : Grows (leafRoutes value ++ branchRoutes branches ++ wildRoutes wild)
      (leafRoutes value ++ branchRoutes branches' ++ wildRoutes wild) (.byte b :: ts, leaf) outcome := by
  apply hg.among (leafRoutes value) (wildRoutes wild)
  intro x hx
  rcases List.mem_append.mp hx with hx | hx
  · simp [leafRoutes_head hx]
  · obtain ⟨t, hhead, hshape⟩ := wildRoutes_head hx
    simpa [hhead, Token.shape] using hshape b

theorem contents_grow_wild (hv : validBranches k branches) (hne : ts ≠ []) (hbyte : ∀ b more, ts ≠ .byte b :: more)
    (hg : Grows (wildRoutes wild) (wildRoutes wild') (ts, leaf) outcome) :
    Grows (leafRoutes value ++ branchRoutes branches ++ wildRoutes wild)
      (leafRoutes value ++ branchRoutes branches ++ wildRoutes wild') (ts, leaf) outcome := by
  have hamong := hg.among (leafRoutes value ++ branchRoutes branches) [] (by
    intro x hx
    rw [List.append_nil] at hx
    match ts with
    | [] => exact absurd rfl hne
    | .byte b :: more => exact absurd rfl (hbyte b more)
    | .parameter :: more | .rest label :: more =>
      rcases List.mem_append.mp hx with hx | hx
      · simp [leafRoutes_head hx]
      · obtain ⟨c, -, hhead⟩ := branchRoutes_head hv hx
        simp [hhead, Token.shape])
  simpa using hamong

end

/-! ## Insertion at a node -/

theorem commonLength_literal (k : Nat) (bs : List UInt8) (ts : List Token) :
    commonLength (write k (literal bs ++ ts)) (plain bs) = bs.length := by
  induction bs with
  | nil => simp [commonLength]
  | cons b bs ih => simp [write, commonLength, ih]

/-- What an insertion below some branches comes to: no branch leads on, or one does and grows. -/
def BranchesGrow (k : Nat) (e : Entry α) (branches : List (UInt8 × Tree α)) :
    Option (Outcome × List (UInt8 × Tree α)) → Prop
  | none => ∀ c ∈ branches, e.1.head? ≠ some (.byte c.1)
  | some (outcome, branches') =>
    validBranches k branches' ∧ Grows (branchRoutes branches) (branchRoutes branches') e outcome

section
variable {route : List Cell} {leaf : Leaf α} {k priority : Nat} {bs : List UInt8} {tail : List Token}
  {value : Option (Leaf α)} {branches : List (UInt8 × Tree α)} {wild : Option (Wild α)}

theorem insert_here (hb : Braceless bs) (hbranches : validBranches k branches) (hwild : validWild k wild)
    {r : Outcome × Tree α} (hr : Tree.insert route leaf (write k (literal bs ++ []))
      (.node (plain bs) priority value branches wild) = r) :
    r.2.Valid k ∧ Grows (Tree.node (plain bs) priority value branches wild).routes r.2.routes
      (literal bs ++ [], leaf) r.1 := by
  have hcommon := commonLength_literal k bs []
  simp only [Tree.insert, hcommon, plain_length, Nat.lt_irrefl, if_false, drop_write_literal, write] at hr
  cases value with
  | some old =>
    subst hr
    refine ⟨valid_node hb hbranches hwild, ?_⟩
    simp only [routes_node]
    exact Grows.refused _ _ _
  | none =>
    subst hr
    refine ⟨valid_node hb hbranches hwild, ?_⟩
    simp only [routes_node]
    exact (contents_grow_leaf hbranches).prefixed _

theorem insert_byte {b : UInt8} {ts : List Token} (hb : Braceless bs) (hp : Proper k (.byte b :: ts))
    (hbranches : validBranches k branches) (hwild : validWild k wild)
    (ih : BranchesGrow k (.byte b :: ts, leaf) branches
      (insertBranch route leaf (write k (.byte b :: ts)) [] branches))
    {r : Outcome × Tree α} (hr : Tree.insert route leaf (write k (literal bs ++ .byte b :: ts))
      (.node (plain bs) priority value branches wild) = r) :
    r.2.Valid k ∧ Grows (Tree.node (plain bs) priority value branches wild).routes r.2.routes
      (literal bs ++ .byte b :: ts, leaf) r.1 := by
  have hcommon := commonLength_literal k bs (.byte b :: ts)
  have hleads : (⟨b, false⟩ : Cell).leads = true := by simp [Cell.leads, hp.1]
  have hopens : (⟨b, false⟩ : Cell).opens = false := by simp [Cell.opens, hp.1.1]
  simp only [Tree.insert, hcommon, plain_length, Nat.lt_irrefl, if_false, drop_write_literal] at hr
  simp only [write, hleads, hopens, if_true, Bool.false_eq_true, if_false] at hr ih
  cases hbranch : insertBranch route leaf (⟨b, false⟩ :: write k ts) [] branches with
  | none =>
    rw [hbranch] at hr ih
    have hnew : ∀ c ∈ branches, c.1 ≠ b := by
      intro c hc heq
      exact ih c hc (by rw [heq]; rfl)
    have hsprout := sprout_sprouts leaf ((write k ts).length + 2) k 1 (.byte b :: ts) (List.cons_ne_nil _ _) hp
      (by simp [write])
    rw [write] at hsprout
    generalize sprout leaf 1 ((write k ts).length + 2) (⟨b, false⟩ :: write k ts) = grown at hr hsprout
    obtain ⟨outcome, t⟩ := grown
    obtain ⟨hvalid, hg⟩ := addBranch_grows hbranches hnew hsprout
    subst hr
    refine ⟨valid_node hb hvalid hwild, ?_⟩
    simp only [routes_node]
    exact (contents_grow_branches hg).prefixed _
  | some below =>
    obtain ⟨outcome, branches'⟩ := below
    rw [hbranch] at hr ih
    obtain ⟨hvalid, hg⟩ := ih
    subst hr
    refine ⟨valid_node hb hvalid hwild, ?_⟩
    simp only [routes_node]
    exact (contents_grow_branches hg).prefixed _

theorem insert_wild (hb : Braceless bs) (hp : Proper k tail) (hne : tail ≠ [])
    (hbyte : ∀ b more, tail ≠ .byte b :: more) (hbranches : validBranches k branches)
    (ih : validWild k (insertWild route leaf (write k tail) wild).2 ∧
      Grows (wildRoutes wild) (wildRoutes (insertWild route leaf (write k tail) wild).2) (tail, leaf)
        (insertWild route leaf (write k tail) wild).1)
    {r : Outcome × Tree α} (hr : Tree.insert route leaf (write k (literal bs ++ tail))
      (.node (plain bs) priority value branches wild) = r) :
    r.2.Valid k ∧ Grows (Tree.node (plain bs) priority value branches wild).routes r.2.routes
      (literal bs ++ tail, leaf) r.1 := by
  have hcommon := commonLength_literal k bs tail
  obtain ⟨hvalid, hg⟩ := ih
  -- what is written next opens a brace, and no branch begins with one
  obtain ⟨cs, hcs⟩ := write_brace hp hne hbyte
  have hleads : (⟨openBrace, false⟩ : Cell).leads = false := by decide
  have hopens : (⟨openBrace, false⟩ : Cell).opens = true := by decide
  simp only [Tree.insert, hcommon, plain_length, Nat.lt_irrefl, if_false, drop_write_literal] at hr
  simp only [hcs, hleads, hopens, if_true, Bool.false_eq_true, if_false] at hr hvalid hg
  subst hr
  refine ⟨valid_node hb hbranches hvalid, ?_⟩
  simp only [routes_node]
  exact (contents_grow_wild hbranches hne hbyte hg).prefixed _

theorem insert_node (hb : Braceless bs) (hp : Proper k tail) (hbranches : validBranches k branches)
    (hwild : validWild k wild)
    (ihbranch : ∀ b ts, tail = .byte b :: ts →
      BranchesGrow k (tail, leaf) branches (insertBranch route leaf (write k tail) [] branches))
    (ihwild : tail ≠ [] → (∀ b more, tail ≠ .byte b :: more) →
      validWild k (insertWild route leaf (write k tail) wild).2 ∧
        Grows (wildRoutes wild) (wildRoutes (insertWild route leaf (write k tail) wild).2) (tail, leaf)
          (insertWild route leaf (write k tail) wild).1)
    {r : Outcome × Tree α} (hr : Tree.insert route leaf (write k (literal bs ++ tail))
      (.node (plain bs) priority value branches wild) = r) :
    r.2.Valid k ∧ Grows (Tree.node (plain bs) priority value branches wild).routes r.2.routes
      (literal bs ++ tail, leaf) r.1 := by
  by_cases hnil : tail = []
  · subst hnil
    exact insert_here hb hbranches hwild hr
  by_cases hbyte : ∃ b ts, tail = .byte b :: ts
  · obtain ⟨b, ts, rfl⟩ := hbyte
    exact insert_byte hb hp hbranches hwild (ihbranch b ts rfl) hr
  · have hbyte : ∀ b more, tail ≠ .byte b :: more := fun b more h => hbyte ⟨b, more, h⟩
    exact insert_wild hb hp hnil hbyte hbranches (ihwild hnil hbyte) hr

end

/-! ## Splitting a node -/

theorem commonLength_take (as bs : List Cell) :
    commonLength as (bs.take (commonLength as bs)) = commonLength as bs := by
  induction as generalizing bs with
  | nil => simp [commonLength]
  | cons a as ih =>
    cases bs with
    | nil => simp [commonLength]
    | cons b bs =>
      by_cases h : a = b
      · simp [commonLength, h, ih]
      · simp [commonLength, h]

/-- The byte that a split node is told apart by. -/
def splitKey (label : List Cell) (n : Nat) : UInt8 := ((label.drop n).headD ⟨0, false⟩).byte

/-- Insertion at a node whose text the route leaves is insertion at the upper part of the split node. -/
theorem insert_split (route : List Cell) (leaf : Leaf α) {cs label : List Cell} {n : Nat} (priority : Nat)
    (value : Option (Leaf α)) (branches : List (UInt8 × Tree α)) (wild : Option (Wild α))
    (hn : commonLength cs label = n) (hlt : n < label.length)
    (hkey : ∀ c rest, cs.drop n = c :: rest → c.byte ≠ splitKey label n) :
    Tree.insert route leaf cs (.node label priority value branches wild) =
      Tree.insert route leaf cs (.node (label.take n) priority none
        [(splitKey label n, .node (label.drop n) priority value branches wild)] none) := by
  have hcommon : commonLength cs (label.take n) = n := by
    rw [← hn]
    exact commonLength_take cs label
  have hlen : (label.take n).length = n := List.length_take_of_le (Nat.le_of_lt hlt)
  simp only [Tree.insert, hn, hlt, if_true, hcommon, hlen, Nat.lt_irrefl, if_false]
  cases hd : cs.drop n with
  | nil => rfl
  | cons c rest =>
    have hnone : insertBranch route leaf (c :: rest) []
        [(splitKey label n, .node (label.drop n) priority value branches wild)] = none := by
      simp [insertBranch, Ne.symm (hkey c rest hd)]
    simp only [hnone, ite_self, insertWild]
    rfl

theorem splitKey_plain {bs : List UInt8} {n : Nat} (hn : n < bs.length) : splitKey (plain bs) n = bs[n] := by
  rw [splitKey, plain_drop, List.drop_eq_getElem_cons hn]
  rfl

theorem split_valid {k n : Nat} {bs : List UInt8} (priority : Nat) (value : Option (Leaf α))
    {branches : List (UInt8 × Tree α)} {wild : Option (Wild α)} (hn : n < bs.length) (hb : Braceless bs)
    (hbranches : validBranches k branches) (hwild : validWild k wild) :
    validBranches k [(splitKey (plain bs) n, .node (plain (bs.drop n)) priority value branches wild)] ∧
      (Tree.node (plain bs) priority value branches wild).routes = (Tree.node (plain (bs.take n)) priority none
        [(splitKey (plain bs) n, .node (plain (bs.drop n)) priority value branches wild)] none).routes := by
  constructor
  · rw [validBranches_iff]
    refine ⟨?_, by simp⟩
    simp only [List.mem_singleton, forall_eq, routes_node]
    refine ⟨valid_node (fun b hb' => hb b (List.mem_of_mem_drop hb')) hbranches hwild, ?_⟩
    rw [splitKey_plain hn, List.drop_eq_getElem_cons hn]
    exact beginWith_literal _ _ _
  · simp only [routes_node, branchRoutes, wildRoutes, leafRoutes_none, List.append_nil, List.nil_append,
      prefixed_prefixed]
    rw [← literal_append, List.take_append_drop]

theorem write_ne_splitKey {k n : Nat} {bs : List UInt8} {tail : List Token} (hn : n < bs.length) (hb : Braceless bs)
    (hp : Proper k tail) (hhead : ∀ b, bs[n]? = some b → tail.head? ≠ some (.byte b)) {c : Cell}
    {rest : List Cell} (h : write k tail = c :: rest) : c.byte ≠ splitKey (plain bs) n := by
  rw [splitKey_plain hn]
  by_cases hnil : tail = []
  · subst hnil
    cases h
  by_cases hbyte : ∃ b ts, tail = .byte b :: ts
  · obtain ⟨b, ts, rfl⟩ := hbyte
    cases h
    intro heq
    exact hhead bs[n] (List.getElem?_eq_getElem hn) (by rw [← heq]; rfl)
  · obtain ⟨cs, hcs⟩ := write_brace hp hnil (fun b more h => hbyte ⟨b, more, h⟩)
    rw [h] at hcs
    cases hcs
    exact fun heq => (hb bs[n] (List.getElem_mem hn)).1 heq.symm

/-! ## Insertion at a parameter -/

section
variable {k : Nat} {suffixes suffixes' : List (Tree α)} {leaf : Leaf α} {value : Option (Leaf α)}
  {ts : List Token} {outcome : Outcome}

theorem parameter_grow_leaf (hv : validSuffixes k suffixes) :
    Grows (leafRoutes none ++ suffixRoutes suffixes) (leafRoutes (some leaf) ++ suffixRoutes suffixes)
      ([], leaf) (.ok ()) := by
  have hamong := (Grows.sprouted ([], leaf)).among [] (suffixRoutes suffixes) (by
    intro x hx
    rw [List.nil_append] at hx
    simp [suffixRoutes_head hv hx])
  simpa using hamong

theorem parameter_grow_suffixes
    (hg : Grows (suffixRoutes suffixes) (suffixRoutes suffixes') (.byte slash :: ts, leaf) outcome) :
    Grows (leafRoutes value ++ suffixRoutes suffixes) (leafRoutes value ++ suffixRoutes suffixes')
      (.byte slash :: ts, leaf) outcome := by
  have hamong := hg.among (leafRoutes value) [] (by
    intro x hx
    rw [List.append_nil] at hx
    simp [leafRoutes_head hx])
  simpa using hamong

end

theorem insert_label (route : List Cell) (leaf : Leaf α) {cs : List Cell} {t : Tree α}
    (h : commonLength cs t.label = t.label.length) : (t.insert route leaf cs).2.label = t.label := by
  obtain ⟨label, priority, value, branches, wild⟩ := t
  simp only [Tree.label] at h
  simp only [Tree.insert, h, Nat.lt_irrefl, if_false]
  split
  · split <;> rfl
  · split
    · rfl
    · split <;> rfl

/-- Insertion below what follows a parameter. -/
def SuffixesGrow (k : Nat) (e : Entry α) (suffixes : List (Tree α)) : Option (Outcome × List (Tree α)) → Prop
  | none => suffixes = []
  | some (outcome, suffixes') =>
    validSuffixes k suffixes' ∧ Grows (suffixRoutes suffixes) (suffixRoutes suffixes') e outcome

section
variable {route : List Cell} {leaf : Leaf α} {k : Nat} {value : Option (Leaf α)} {suffixes : List (Tree α)}
  {more : List Token}

theorem insert_rest_refused (route : List Cell) (leaf : Leaf α) {label : List Cell} (hk : k < mostParameters)
    (hl : RestLabel label) :
    ∃ fault, (Wild.parameter (parameterLabel k) value suffixes).insert route leaf (write k (.rest label :: more)) =
      (.error fault, .parameter (parameterLabel k) value suffixes) := by
  have hlt : 1 < (bytes label).length := (List.getElem?_eq_some_iff.mp hl.star).1
  have hbytes : bytes ((label ++ write k more).take 3) = (bytes label ++ bytes (write k more)).take 3 := by
    simp [bytes]
  have hne : bytes ((label ++ write k more).take (parameterLabel k).length) ≠ bytes (parameterLabel k) := by
    intro heq
    have hsecond := congrArg (·[1]?) (hbytes.symm.trans heq)
    simp only [List.getElem?_take_of_lt (show 1 < 3 by omega), List.getElem?_append_left hlt, hl.star] at hsecond
    exact (letter_ne hk).2.1 (Option.some.inj hsecond).symm
  simp only [write, Wild.insert]
  rw [if_pos hne]
  exact ⟨_, rfl⟩

theorem insert_parameter (hp : Proper k (.parameter :: more)) (hsuffixes : validSuffixes (k + 1) suffixes)
    (ih : ∀ ts, more = .byte slash :: ts → SuffixesGrow (k + 1) (more, leaf) suffixes
      (insertSuffixed route leaf (write (k + 1) more) (plain [slash]) suffixes))
    {r : Outcome × Wild α} (hr : (Wild.parameter (parameterLabel k) value suffixes).insert route leaf
      (write k (.parameter :: more)) = r) :
    r.2.Valid k ∧ Grows (Wild.parameter (parameterLabel k) value suffixes).routes r.2.routes
      (.parameter :: more, leaf) r.1 := by
  obtain ⟨hk, hstart, hmore⟩ := hp
  have htake : (write k (.parameter :: more)).take (parameterLabel k).length = parameterLabel k :=
    List.take_left' rfl
  have hdrop : (write k (.parameter :: more)).drop (parameterLabel k).length = write (k + 1) more :=
    List.drop_left' rfl
  simp only [Wild.insert, htake, hdrop, ne_eq, not_true_eq_false, if_false] at hr
  rcases hstart with rfl | hstart
  · simp only [write] at hr
    cases value with
    | some old =>
      subst hr
      exact ⟨⟨⟨hk, rfl⟩, hsuffixes⟩, Grows.refused _ _ _⟩
    | none =>
      subst hr
      exact ⟨⟨⟨hk, rfl⟩, hsuffixes⟩, (parameter_grow_leaf hsuffixes).prefixed [.parameter]⟩
  · obtain ⟨ts, rfl⟩ := List.head?_eq_some_iff.mp hstart
    have ih := ih ts rfl
    have hlen := segmentLength_slash (write (k + 1) ts)
    simp only [write, hlen, List.take_succ_cons, List.take_zero, List.drop_succ_cons, List.drop_zero,
      holdsParameter_slash, Bool.false_eq_true, if_false, plain_cons, plain_nil] at hr ih
    cases hsuffix : insertSuffixed route leaf (⟨slash, false⟩ :: write (k + 1) ts) [⟨slash, false⟩] suffixes with
    | none =>
      rw [hsuffix] at hr ih
      obtain rfl : suffixes = [] := ih
      obtain ⟨hlabel, hvalid, hg⟩ :=
        sproutSuffix_sprouts leaf ((write (k + 1) ts).length + 2) (k + 1) ts hmore.2 (by omega)
      simp only [plain_cons, plain_nil] at hlabel hvalid hg
      generalize sproutSuffix leaf ((write (k + 1) ts).length + 2) [⟨slash, false⟩] (write (k + 1) ts) = grown
        at hr hlabel hvalid hg
      subst hr
      have hg' : Grows (suffixRoutes []) (suffixRoutes [grown.2]) (.byte slash :: ts, leaf) grown.1 := by
        simpa [suffixRoutes] using hg
      exact ⟨⟨⟨hk, rfl⟩, ⟨hlabel, hvalid⟩, rfl⟩, (parameter_grow_suffixes hg').prefixed [.parameter]⟩
    | some below =>
      obtain ⟨outcome, suffixes'⟩ := below
      rw [hsuffix] at hr ih
      obtain ⟨hvalid, hg⟩ := ih
      subst hr
      exact ⟨⟨⟨hk, rfl⟩, hvalid⟩, (parameter_grow_suffixes hg).prefixed [.parameter]⟩

end

/-! ## Insertion into a tree -/

mutual

/-- An insertion leaves a valid tree, which holds the new route if it succeeds and otherwise what it held. -/
theorem Tree.insert_grows (route : List Cell) (leaf : Leaf α) : ∀ (t : Tree α) (k : Nat) (ts : List Token),
    t.Valid k → Proper k ts → (t.insert route leaf (write k ts)).2.Valid k ∧
      Grows t.routes (t.insert route leaf (write k ts)).2.routes (ts, leaf) (t.insert route leaf (write k ts)).1
  | .node label priority value branches wild, k, ts, hv, hp => by
    obtain ⟨⟨hlabel, hb⟩, hbranches, hwild⟩ := hv
    obtain ⟨bs, rfl⟩ : ∃ bs, label = plain bs := ⟨_, hlabel⟩
    rw [bytes_plain] at hb
    obtain ⟨tail, hts, hdrop, hhead⟩ := commonLength_write hp hb
    generalize hn : commonLength (write k ts) (plain bs) = n at hts hdrop hhead
    have hle : n ≤ bs.length := by
      have := commonLength_le (write k ts) (plain bs)
      rw [plain_length] at this
      omega
    have hptail : Proper k tail := (proper_literal.mp (hts ▸ hp)).2
    by_cases hlt : n < bs.length
    · -- the node is split, and neither the lower part nor a node for any text is in the way
      have hkey : ∀ c rest, (write k ts).drop n = c :: rest → c.byte ≠ splitKey (plain bs) n := by
        intro c rest h
        exact write_ne_splitKey hlt hb hptail hhead (hdrop ▸ h)
      obtain ⟨hlower, hroutes⟩ := split_valid priority value hlt hb hbranches hwild
      rw [insert_split route leaf priority value branches wild hn (by rwa [plain_length]) hkey, hroutes, hts,
        plain_take, plain_drop]
      refine insert_node (fun b hb' => hb b (List.mem_of_mem_take hb')) hptail hlower (validWild_none k) ?_ ?_ rfl
      · intro b ts heq
        subst heq
        have hne : b ≠ splitKey (plain bs) n := hkey ⟨b, false⟩ (write k ts) hdrop
        simp only [write, insertBranch, List.head?_cons, Option.map_some, Option.some.injEq, Ne.symm hne, if_false]
        simpa [BranchesGrow] using hne
      · intro hne hbyte
        exact growWild_grows leaf hptail hne hbyte
    · obtain rfl : n = bs.length := by omega
      rw [List.take_length] at hts
      subst hts
      refine insert_node hb hptail hbranches hwild ?_ ?_ rfl
      · intro b ts heq
        subst heq
        exact insertBranch_grows route leaf branches [] k b ts hbranches hptail nofun
      · intro hne hbyte
        exact insertWild_grows route leaf wild k tail hwild hptail hne hbyte

theorem insertBranch_grows (route : List Cell) (leaf : Leaf α) : ∀ (branches before : List (UInt8 × Tree α)) (k : Nat)
    (b : UInt8) (ts : List Token), validBranches k (before ++ branches) → Proper k (.byte b :: ts) →
    (∀ c ∈ before, c.1 ≠ b) →
    BranchesGrow k (.byte b :: ts, leaf) (before ++ branches)
      (insertBranch route leaf (write k (.byte b :: ts)) before branches)
  | [], before, k, b, ts, hv, hp, hbefore => by
    simp only [insertBranch, BranchesGrow, List.append_nil]
    intro c hc heq
    cases heq
    exact hbefore c hc rfl
  | (key, t) :: rest, before, k, b, ts, hv, hp, hbefore => by
    by_cases hkey : key = b
    · subst hkey
      have ht := ((validBranches_iff.mp hv).1 (key, t) (List.mem_append_right _ List.mem_cons_self)).1
      obtain ⟨hvalid, hg⟩ := Tree.insert_grows route leaf t k (.byte key :: ts) ht hp
      simp only [insertBranch, write, List.head?_cons, Option.map_some, if_true] at hvalid hg ⊢
      exact promote_grows hv hvalid hg
    · have ih := insertBranch_grows route leaf rest (before ++ [(key, t)]) k b ts (by simpa using hv) hp (by
        intro c hc
        rcases List.mem_append.mp hc with hc | hc
        · exact hbefore c hc
        · rw [List.mem_singleton.mp hc]
          exact hkey)
      rw [List.append_assoc, List.singleton_append] at ih
      simpa only [insertBranch, write, List.head?_cons, Option.map_some, Option.some.injEq, hkey, if_false] using ih

theorem insertWild_grows (route : List Cell) (leaf : Leaf α) : ∀ (wild : Option (Wild α)) (k : Nat)
    (ts : List Token), validWild k wild → Proper k ts → ts ≠ [] → (∀ b more, ts ≠ .byte b :: more) →
    validWild k (insertWild route leaf (write k ts) wild).2 ∧
      Grows (wildRoutes wild) (wildRoutes (insertWild route leaf (write k ts) wild).2) (ts, leaf)
        (insertWild route leaf (write k ts) wild).1
  | none, k, ts, _, hp, hne, hbyte => growWild_grows leaf hp hne hbyte
  | some w, k, ts, hv, hp, hne, hbyte => by
    have ih := Wild.insert_grows route leaf w k ts (validWild_some.mp hv) hp hne hbyte
    rw [insertWild]
    exact ⟨validWild_some.mpr ih.1, ih.2⟩

theorem Wild.insert_grows (route : List Cell) (leaf : Leaf α) : ∀ (w : Wild α) (k : Nat) (ts : List Token),
    w.Valid k → Proper k ts → ts ≠ [] → (∀ b more, ts ≠ .byte b :: more) →
    (w.insert route leaf (write k ts)).2.Valid k ∧
      Grows w.routes (w.insert route leaf (write k ts)).2.routes (ts, leaf) (w.insert route leaf (write k ts)).1
  | .rest label value, k, ts, hv, _, _, _ => by
    rw [Wild.insert]
    exact ⟨hv, Grows.refused _ _ _⟩
  | .parameter label value suffixes, k, ts, hv, hp, hne, hbyte => by
    obtain ⟨⟨hk, rfl⟩, hsuffixes⟩ := hv
    match ts with
    | [] => exact absurd rfl hne
    | .byte b :: more => exact absurd rfl (hbyte b more)
    | .rest label :: more =>
      obtain ⟨fault, heq⟩ := insert_rest_refused route leaf hk hp.1
      rw [heq]
      exact ⟨⟨⟨hk, rfl⟩, hsuffixes⟩, Grows.refused _ _ fault⟩
    | .parameter :: more =>
      refine insert_parameter hp hsuffixes ?_ rfl
      intro ts heq
      subst heq
      exact insertSuffixed_grows route leaf suffixes (k + 1) ts hsuffixes hp.2.2

theorem insertSuffixed_grows (route : List Cell) (leaf : Leaf α) : ∀ (suffixes : List (Tree α)) (k : Nat)
    (ts : List Token), validSuffixes k suffixes → Proper k (.byte slash :: ts) →
    SuffixesGrow k (.byte slash :: ts, leaf) suffixes
      (insertSuffixed route leaf (write k (.byte slash :: ts)) (plain [slash]) suffixes)
  | [], _, _, _, _ => rfl
  | t :: rest, k, ts, hv, hp => by
    obtain ⟨⟨hlabel, hvalid⟩, rfl⟩ := hv
    obtain ⟨hvalid', hg⟩ := Tree.insert_grows route leaf t k (.byte slash :: ts) hvalid hp
    have hlabel' : (t.insert route leaf (write k (.byte slash :: ts))).2.label = plain [slash] := by
      rw [← hlabel]
      apply insert_label
      rw [hlabel]
      exact commonLength_literal k [slash] ts
    simp only [insertSuffixed, hlabel, if_true, SuffixesGrow]
    refine ⟨⟨⟨hlabel', hvalid'⟩, rfl⟩, ?_⟩
    simpa [suffixRoutes] using hg

end

/-- Adding a route whose parameters fill their segments, to a tree of routes that begin with a slash. -/
theorem Tree.add_grows {t : Tree α} {path : List UInt8} {ts : List Token} {names : Names} (value : α)
    (hv : t.Valid 0) (hbegin : BeginWith slash t.routes) (hp : Proper 0 ts) (hts : ts.head? = some (.byte slash))
    (hnormal : normalize (cells path) = .ok (write 0 ts, names)) :
    ((t.add path value).2.Valid 0 ∧ BeginWith slash (t.add path value).2.routes) ∧
      Grows t.routes (t.add path value).2.routes (ts, ⟨value, names⟩) (t.add path value).1 := by
  have finish : ∀ {r : Outcome × Tree α}, r.2.Valid 0 → Grows t.routes r.2.routes (ts, ⟨value, names⟩) r.1 →
      (r.2.Valid 0 ∧ BeginWith slash r.2.routes) ∧ Grows t.routes r.2.routes (ts, ⟨value, names⟩) r.1 :=
    fun hv hg => ⟨⟨hv, hg.beginWith hbegin hts⟩, hg⟩
  simp only [Tree.add, hnormal]
  split
  · rename_i priority leaf
    -- a node without text is empty, for no route is
    have hroutes : (Tree.node [] priority leaf [] none).routes = ([] : List (Entry α)) := by
      cases leaf with
      | none => rfl
      | some l => exact absurd (hbegin ([], l) List.mem_cons_self) (by simp)
    have hsprout := sprout_sprouts ⟨value, names⟩ ((write 0 ts).length + 1) 0 (priority + 1) ts
      (by intro heq; subst heq; cases hts) hp (by omega)
    apply finish hsprout.valid
    rw [hroutes]
    exact hsprout.grows
  · obtain ⟨hvalid, hg⟩ := Tree.insert_grows (write 0 ts) ⟨value, names⟩ t 0 ts hv hp
    exact finish hvalid hg

end JsonService.Route
