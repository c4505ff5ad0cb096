import JsonService.Proofs.Route.Places

/-!
# Places that are taken

Whatever else is inserted, a place that is taken stays so, and a route for it is refused. Both are shown for one
insertion, node by node: at a parameter, at a node without text, at a node whose text is split, and from these for every
tree.

**Results.**
* `insert_keeps`: no insertion frees a place.
* `insert_occupied`: an insertion that succeeds takes the place of its route.
* `insert_refused`: a route for a place that is taken is refused for a conflict.
* `add_keeps`, `add_occupied`, `add_refused`: the same of whole trees.
-/
namespace JsonService.Route

variable {α : Type}

/-! ## Places stay taken -/

/-- Nothing that is inserted frees a place in the tree. -/
def Tree.Keeps (t : Tree α) : Prop :=
  ∀ (route : List Cell) (leaf : Leaf α) (cs : List Cell) (ts us : List Token), t.Sane True → Written cs ts →
    Regular cs → t.Occupied us → (t.insert route leaf cs).2.Occupied us

theorem wild_keeps {w : Wild α} (ih : ∀ t ∈ w.suffixes, t.Keeps) (sane : w.Sane True) (route : List Cell)
    (leaf : Leaf α) {cs : List Cell} {ts us : List Token} (h : Opening cs ts) (regular : Regular cs)
    (occupied : BelowWild Tree.Occupied w us) : BelowWild Tree.Occupied (w.insert route leaf cs).2 us := by
  cases w with
  | rest label value => exact occupied
  | parameter label value suffixes =>
    obtain ⟨⟨k, hk, rfl⟩, hsuffixes⟩ := sane
    have hcases := insert_parameter_cases route leaf (parameterLabel k) value suffixes cs
    generalize (Wild.parameter (parameterLabel k) value suffixes).insert route leaf cs = r at hcases
    cases hcases with
    | conflict words => exact occupied
    | segment => exact occupied
    | free same nil none =>
      cases occupied with
      | last label old suffixes => cases none
      | segment label leaf found below => exact .segment _ _ found below
    | @below rest before after t same hrest ne split first found =>
      obtain ⟨ts', rfl, written, behind⟩ := h.parameter_of_bytes hk same
      subst hrest split
      have mem : t ∈ before ++ t :: after := List.mem_append_right _ List.mem_cons_self
      cases occupied with
      | last label leaf suffixes => exact .last _ _ _
      | @segment _ _ _ s us hs below =>
        by_cases ht : bytes t.label = [slash]
        · -- the insertion goes on below the slash, and leaves it there
          rw [afterSegment_first (fun s hs => by rw [← ht, found]; exact first s hs) ht] at hs
          cases hs
          obtain ⟨label, saneBelow⟩ := (saneSuffixes_iff.mp hsuffixes t mem).slash ht
          obtain ⟨cs', hcs, inner⟩ := segmentOf_eq_slash (found ▸ ht) (behind regular)
          have label' := label_insert_slash route leaf cs' label
          rw [← hcs] at label'
          refine .segment _ _ (afterSegment_first (fun s hs => ?_) (by rw [label']; rfl))
            (ih t mem route leaf _ _ _ saneBelow written inner below)
          rw [← ht, found]
          exact first s hs
        · have ht' := label_insert_other route leaf (cs.drop (parameterLabel k).length)
            (saneSuffixes_iff.mp hsuffixes t mem).2.2 ht
          rw [afterSegment_other ht] at hs
          exact .segment _ _ (by rw [afterSegment_other ht', hs]) below
    | @grown rest same hrest ne others none =>
      obtain ⟨ts', rfl, written, behind⟩ := h.parameter_of_bytes hk same
      subst hrest
      cases occupied with
      | last label leaf suffixes => exact .last _ _ _
      | @segment _ _ _ s us hs below =>
        refine .segment _ _ ?_ below
        obtain ⟨mem, hslash⟩ := afterSegment_mem hs
        rw [afterSegment_insertSuffix, hs]
        rw [label_sproutSuffix, ← hslash]
        exact (others s mem).symm

theorem bare_keeps {branches : List (UInt8 × Tree α)} {wild : Option (Wild α)}
    (ihBranches : ∀ b ∈ branches, b.2.Keeps) (ihWild : ∀ w ∈ wild, ∀ t ∈ Wild.suffixes w, t.Keeps)
    (hbranches : saneBranches True branches) (hwild : saneWild True wild) (route : List Cell) (leaf : Leaf α)
    (priority : Nat) (value : Option (Leaf α)) {cs : List Cell} {ts us : List Token} (h : Written cs ts)
    (regular : Regular cs) (occupied : Below Tree.Occupied value branches wild us) :
    (Tree.insert route leaf cs (.node [] priority value branches wild)).2.Occupied us := by
  have hcases := insert_bare route leaf priority value branches wild cs
  generalize Tree.insert route leaf cs (.node [] priority value branches wild) = r at hcases
  cases hcases with
  | taken old known => exact occupied_bare_iff.mpr occupied
  | free none =>
    refine occupied_bare_iff.mpr ?_
    cases occupied with
    | here old branches wild => cases none
    | branch leaf wild found below => exact .branch _ _ found below
    | wild leaf branches below => exact .wild _ _ below
  | @branch c cs t branches' leads known lookup members =>
    refine occupied_bare_iff.mpr ?_
    cases occupied with
    | here old branches wild => exact .here _ _ _
    | wild leaf branches below => exact .wild _ _ below
    | @branch _ _ _ b s us found below =>
      by_cases hb : b = c.byte
      · subst hb
        cases known.symm.trans found
        have mem := mem_of_lookup known
        refine .branch _ _ (by rw [lookup, if_pos rfl]) ?_
        exact ihBranches _ mem route leaf (c :: cs) ts _ (saneBranches_iff.mp hbranches _ mem) h regular below
      · exact .branch _ _ (by rw [lookup, if_neg hb, found]) below
  | wild opens =>
    refine occupied_bare_iff.mpr ?_
    cases occupied with
    | here old branches wild => exact .here _ _ _
    | branch leaf wild found below => exact .branch _ _ found below
    | wild leaf branches below =>
      exact .wild _ _ (wild_keeps (ihWild _ rfl) (saneWild_some.mp hwild) route _ (h.opening opens) regular below)
  | @grown c cs opens none =>
    refine occupied_bare_iff.mpr ?_
    cases occupied with
    | here old branches wild => exact .here _ _ _
    | wild leaf branches below => exact .wild _ _ below
    | @branch _ _ _ b s us found below =>
      have first := none (h.byte_cases opens).1
      have hb : b ≠ c.byte := by
        rintro rfl
        cases first.symm.trans found
      exact .branch _ _ (by rw [lookup_addBranch first, if_neg hb, found]) below

theorem insertSplit_keeps {x : Cell} {lower : List Cell} (hlower : SaneLabel True (x :: lower)) (upper : List Cell)
    {t : Tree α} {us : List Token} (occupied : t.Occupied (.byte x.byte :: us)) (priority : Nat) (leaf : Leaf α)
    {cs : List Cell} {ts : List Token} (h : Written cs ts) (regular : Regular cs)
    (parted : ∀ c, cs.head? = some c → c ≠ x) :
    (insertSplit leaf priority upper (x.byte, t) cs).2.Occupied (literal (bytes upper) ++ .byte x.byte :: us) := by
  have found : [(x.byte, t)].lookup x.byte = some t := List.lookup_cons_self
  cases cs with
  | nil => exact .node upper _ rfl (.branch _ _ found occupied)
  | cons c cs =>
    rw [insertSplit]
    by_cases opens : c.opens = true
    · rw [if_pos opens]
      exact .node upper _ rfl (.branch _ _ found occupied)
    · rw [if_neg opens]
      have differ : c.byte ≠ x.byte :=
        byte_ne_of_parted hlower (h.byte_cases (by simpa using opens)).1 regular.1 (parted c rfl)
      have first : [(x.byte, t)].lookup c.byte = none := by
        rw [List.lookup_cons, beq_eq_false_iff_ne.mpr differ, List.lookup_nil]
      exact .node upper _ rfl (.branch _ _ (by rw [lookup_addBranch first, if_neg (Ne.symm differ), found]) occupied)

/-- **Places stay taken.** -/
theorem insert_keeps : ∀ t : Tree α, t.Keeps := by
  refine Tree.induct ?_
  intro label priority value branches wild ihBranches ihWild route leaf cs ts us ⟨hlabel, hbranches, hwild⟩ h regular
    occupied
  rcases insert_cases route leaf label priority value branches wild cs with ⟨cs', rfl, inserted⟩ |
    ⟨upper, x, lower, cs', rfl, rfl, parted, inserted⟩
  · obtain ⟨us', rfl, below⟩ := occupied.below_label
    obtain ⟨ts', rfl, written⟩ := h.literal_cases hlabel.1
    rw [inserted]
    exact (bare_keeps ihBranches ihWild hbranches hwild route leaf priority value written (regular.behind hlabel.1)
      below).withLabel (label_insert_bare _ _ _ _ _ _ _) label
  · obtain ⟨us', rfl, taken⟩ := occupied_append_iff.mp occupied
    obtain ⟨hupper, hlower⟩ := hlabel.split
    obtain ⟨ts', rfl, written⟩ := h.literal_cases hupper.1
    have first : (Tree.node ([x] ++ lower) priority value branches wild).Occupied us' := taken
    obtain ⟨us, rfl, -⟩ := occupied_append_iff.mp first
    rw [inserted]
    exact insertSplit_keeps hlower upper taken priority leaf written (regular.behind hupper.1) parted

/-! ## Places are taken -/

/-- A route at a parameter, where it goes on behind its own. -/
theorem Opening.at_parameter {cs : List Cell} {ts : List Token} (h : Opening cs ts) {k : Nat} (hk : k < mostParameters)
    (same : bytes (cs.take (parameterLabel k).length) = bytes (parameterLabel k)) :
    ∃ rest ts', cs = parameterLabel k ++ rest ∧ ts = .parameter :: ts' ∧ Written rest ts' := by
  obtain ⟨ts, rfl, -⟩ := h.parameter_of_bytes hk same
  cases h with
  | @parameter cs _ k' hk' h =>
    have letters : bytes (parameterLabel k') = bytes (parameterLabel k) := same
    have label : parameterLabel k' = parameterLabel k := by
      simp only [parameterLabel, bytes, List.map_cons, List.map_nil, List.cons.injEq, and_true, true_and] at letters ⊢
      rw [letters]
    exact ⟨cs, ts, by rw [label], rfl, h⟩

/-- What is inserted with success takes its place. -/
def Tree.Takes (t : Tree α) : Prop :=
  ∀ (route : List Cell) (leaf : Leaf α) (cs : List Cell) (ts : List Token), t.Sane True → Written cs ts → Regular cs →
    Roomy ts → (t.insert route leaf cs).1 = .ok () → (t.insert route leaf cs).2.Occupied ts

theorem wild_takes {w : Wild α} (ih : ∀ t ∈ w.suffixes, t.Takes) (sane : w.Sane True) (route : List Cell)
    (leaf : Leaf α) {cs : List Cell} {ts : List Token} (h : Opening cs ts) (regular : Regular cs) (roomy : Roomy ts)
    (ok : (w.insert route leaf cs).1 = .ok ()) : BelowWild Tree.Occupied (w.insert route leaf cs).2 ts := by
  cases w with
  | rest label value => cases ok
  | parameter label value suffixes =>
    obtain ⟨⟨k, hk, rfl⟩, hsuffixes⟩ := sane
    have hcases := insert_parameter_cases route leaf (parameterLabel k) value suffixes cs
    generalize (Wild.parameter (parameterLabel k) value suffixes).insert route leaf cs = r at hcases ok
    cases hcases with
    | conflict words => cases ok
    | segment => cases ok
    | free same nil none =>
      obtain ⟨rest, ts, rfl, rfl, written⟩ := h.at_parameter hk same
      rw [written.eq_nil nil]
      exact .last _ _ _
    | @below rest before after t same hrest ne split first found =>
      obtain ⟨rest, ts, rfl, rfl, written⟩ := h.at_parameter hk same
      obtain rfl : rest = _ := hrest
      subst split
      rcases written.behind_parameter hk roomy.1 regular with ⟨rfl, -⟩ | ⟨cs, ts, rfl, rfl, -, inner⟩
      · exact absurd rfl ne
      have mem : t ∈ before ++ t :: after := List.mem_append_right _ List.mem_cons_self
      rw [segmentOf_slash] at first found
      obtain ⟨label, saneBelow⟩ := (saneSuffixes_iff.mp hsuffixes t mem).slash found
      have regular' : Regular (⟨slash, false⟩ :: cs) := ⟨nofun, .inl inner⟩
      exact .segment _ _ (afterSegment_first first (by rw [label_insert_slash _ _ _ label]; rfl))
        (ih t mem route leaf _ _ saneBelow written regular' roomy.2 ok)
    | @grown rest same hrest ne others none =>
      obtain ⟨rest, ts, rfl, rfl, written⟩ := h.at_parameter hk same
      obtain rfl : rest = _ := hrest
      rcases written.behind_parameter hk roomy.1 regular with ⟨rfl, -⟩ | ⟨cs, ts, rfl, rfl, behind, inner⟩
      · exact absurd rfl ne
      have hrest : (⟨slash, false⟩ :: cs).drop (segmentLength (⟨slash, false⟩ :: cs)) = cs := by
        rw [segmentLength_slash]
        rfl
      rw [segmentOf_slash, hrest] at ok ⊢
      rw [segmentOf_slash] at others
      obtain ⟨label, occupied⟩ := sproutSuffix_occupied leaf _ [⟨slash, false⟩] cs ts (by simp) behind inner roomy.2 ok
      exact .segment _ _ (afterSegment_insertSuffix_self others (by rw [label]; rfl)) occupied

theorem bare_takes {branches : List (UInt8 × Tree α)} {wild : Option (Wild α)}
    (ihBranches : ∀ b ∈ branches, b.2.Takes) (ihWild : ∀ w ∈ wild, ∀ t ∈ Wild.suffixes w, t.Takes)
    (hbranches : saneBranches True branches) (hwild : saneWild True wild) (route : List Cell) (leaf : Leaf α)
    (priority : Nat) (value : Option (Leaf α)) {cs : List Cell} {ts : List Token} (h : Written cs ts)
    (regular : Regular cs) (roomy : Roomy ts)
    (ok : (Tree.insert route leaf cs (.node [] priority value branches wild)).1 = .ok ()) :
    (Tree.insert route leaf cs (.node [] priority value branches wild)).2.Occupied ts := by
  have hcases := insert_bare route leaf priority value branches wild cs
  generalize Tree.insert route leaf cs (.node [] priority value branches wild) = r at hcases ok
  cases hcases with
  | taken old known => cases ok
  | free none =>
    rw [h.eq_nil rfl]
    exact occupied_bare_iff.mpr (.here _ _ _)
  | @branch c cs t branches' leads known lookup members =>
    have mem := mem_of_lookup known
    obtain ⟨-, ts, rfl, -⟩ := h.byte_cases (leads_iff.mp leads).1
    refine occupied_bare_iff.mpr (.branch _ _ (by rw [lookup, if_pos rfl]) ?_)
    exact ihBranches _ mem route leaf (c :: cs) _ (saneBranches_iff.mp hbranches _ mem) h regular roomy ok
  | wild opens =>
    cases wild with
    | none =>
      obtain ⟨w, hw, occupied⟩ := growWild_occupied leaf (h.opening opens) regular roomy ok
      refine occupied_bare_iff.mpr ?_
      rw [insertWild, hw]
      exact .wild _ _ occupied
    | some w =>
      exact occupied_bare_iff.mpr (.wild _ _ (wild_takes (ihWild w rfl) (saneWild_some.mp hwild) route leaf
        (h.opening opens) regular roomy ok))
  | @grown c cs opens none =>
    obtain ⟨leads, ts, rfl, -⟩ := h.byte_cases opens
    refine occupied_bare_iff.mpr (.branch _ _ (by rw [lookup_addBranch (none leads), if_pos rfl]) ?_)
    exact sprout_occupied leaf _ 1 (c :: cs) _ (by simp) h regular roomy ok

theorem insertSplit_takes {x : Cell} {lower : List Cell} (hlower : SaneLabel True (x :: lower)) (upper : List Cell)
    (t : Tree α) (priority : Nat) (leaf : Leaf α) {cs : List Cell} {ts : List Token} (h : Written cs ts)
    (regular : Regular cs) (roomy : Roomy ts) (parted : ∀ c, cs.head? = some c → c ≠ x)
    (ok : (insertSplit leaf priority upper (x.byte, t) cs).1 = .ok ()) :
    (insertSplit leaf priority upper (x.byte, t) cs).2.Occupied (literal (bytes upper) ++ ts) := by
  cases cs with
  | nil =>
    rw [h.eq_nil rfl]
    exact .node upper _ rfl (.here _ _ _)
  | cons c cs =>
    rw [insertSplit] at ok ⊢
    by_cases opens : c.opens = true
    · rw [if_pos opens] at ok ⊢
      obtain ⟨w, hw, occupied⟩ := growWild_occupied leaf (h.opening opens) regular roomy ok
      rw [hw]
      exact .node upper _ rfl (.wild _ _ occupied)
    · rw [if_neg opens] at ok ⊢
      have occupied := sprout_occupied leaf _ 1 (c :: cs) ts (by simp) h regular roomy ok
      obtain ⟨leads, ts, rfl, -⟩ := h.byte_cases (by simpa using opens)
      have first : [(x.byte, t)].lookup c.byte = none := by
        rw [List.lookup_cons, beq_eq_false_iff_ne.mpr (byte_ne_of_parted hlower leads regular.1 (parted c rfl)),
          List.lookup_nil]
      exact .node upper _ rfl (.branch _ _ (by rw [lookup_addBranch first, if_pos rfl]) occupied)

/-- **Places are taken.** An insertion that succeeds takes the place of its route. -/
theorem insert_occupied : ∀ t : Tree α, t.Takes := by
  refine Tree.induct ?_
  intro label priority value branches wild ihBranches ihWild route leaf cs ts ⟨hlabel, hbranches, hwild⟩ h regular roomy
    ok
  rcases insert_cases route leaf label priority value branches wild cs with ⟨cs', rfl, inserted⟩ |
    ⟨upper, x, lower, cs', rfl, rfl, parted, inserted⟩
  · obtain ⟨ts', rfl, written⟩ := h.literal_cases hlabel.1
    rw [inserted] at ok ⊢
    exact (bare_takes ihBranches ihWild hbranches hwild route leaf priority value written (regular.behind hlabel.1)
      (roomy_literal.mp roomy) ok).withLabel (label_insert_bare _ _ _ _ _ _ _) label
  · obtain ⟨hupper, hlower⟩ := hlabel.split
    obtain ⟨ts', rfl, written⟩ := h.literal_cases hupper.1
    rw [inserted] at ok ⊢
    exact insertSplit_takes hlower upper _ priority leaf written (regular.behind hupper.1) (roomy_literal.mp roomy)
      parted ok

/-! ## Taken places are refused -/

/-- A route for a place that is taken is refused. -/
def Tree.Refuses (t : Tree α) : Prop :=
  ∀ (route : List Cell) (leaf : Leaf α) (cs : List Cell) (ts us : List Token), t.Sane True → Written cs ts →
    Regular cs → Roomy ts → ts.map Token.shape = us.map Token.shape → t.Occupied us →
      Outcome.Conflicts (t.insert route leaf cs).1

theorem shape_literal {bs : List UInt8} {ts us : List Token}
    (h : ts.map Token.shape = (literal bs ++ us).map Token.shape) :
    ∃ ts', ts = literal bs ++ ts' ∧ ts'.map Token.shape = us.map Token.shape := by
  induction bs generalizing ts with
  | nil => exact ⟨ts, rfl, h⟩
  | cons b bs ih =>
    obtain ⟨t, ts, rfl, ht, h⟩ := List.map_eq_cons_iff.mp h
    obtain ⟨ts', rfl, same⟩ := ih h
    cases t with
    | byte b' =>
      cases ht
      exact ⟨ts', rfl, same⟩
    | parameter | rest => cases ht

/-- A route is written with the text of a node if it says the same. -/
theorem Written.label_cases {label cs : List Cell} {ts : List Token}
    (h : Written cs (Route.literal (bytes label) ++ ts)) (hlabel : SaneLabel True label) (regular : Regular cs) :
    ∃ cs', cs = label ++ cs' ∧ Written cs' ts ∧ Regular cs' := by
  induction label generalizing cs with
  | nil => exact ⟨cs, rfl, h, regular⟩
  | cons d label ih =>
    obtain ⟨c, cs, rfl, same, leads, written⟩ := h.byte_first
    have hd : d.escaped = true → IsBrace d.byte := hlabel.2 trivial d List.mem_cons_self
    obtain rfl : c = d := cell_eq_of_byte leads (hlabel.1 d List.mem_cons_self) regular.1 hd same
    have whole : SaneLabel True ([c] ++ label) := hlabel
    obtain ⟨cs', rfl, behind⟩ := ih written whole.split.2 (regular.behind_leads leads)
    exact ⟨cs', rfl, behind⟩

/-- A place at a node for any text does not begin with a byte. -/
theorem BelowWild.head {R : Tree α → List Token → Prop} {w : Wild α} {us : List Token} (h : BelowWild R w us) :
    ∃ t us', us = t :: us' ∧ ∀ b, t ≠ .byte b := by
  cases h
  · exact ⟨_, _, rfl, nofun⟩
  · exact ⟨_, _, rfl, nofun⟩
  · exact ⟨_, _, rfl, nofun⟩

theorem notByte_of_shape {t t' : Token} (same : t'.shape = t.shape) (h : ∀ b, t ≠ .byte b) : ∀ b, t' ≠ .byte b := by
  rintro b rfl
  cases t with
  | byte b' => exact h b' rfl
  | parameter | rest => cases same

theorem Written.opening_of_token {cs : List Cell} {t : Token} {ts : List Token} (h : Written cs (t :: ts))
    (notByte : ∀ b, t ≠ .byte b) : Opening cs (t :: ts) ∧ ∃ c cs', cs = c :: cs' ∧ c.opens = true := by
  have opening : Opening cs (t :: ts) := by
    cases h with
    | byte => exact absurd rfl (notByte _)
    | parameter k hk h => exact .parameter k hk h
    | rest star h => exact .rest star h
  obtain ⟨label, more, rfl, -, ⟨d, label', rfl, opens⟩, -⟩ := opening.exists_label
  exact ⟨opening, d, _, rfl, opens⟩

theorem wild_refuses {w : Wild α} (ih : ∀ t ∈ w.suffixes, t.Refuses) (sane : w.Sane True) (route : List Cell)
    (leaf : Leaf α) {cs : List Cell} {ts us : List Token} (h : Opening cs ts) (regular : Regular cs) (roomy : Roomy ts)
    (same : ts.map Token.shape = us.map Token.shape) (occupied : BelowWild Tree.Occupied w us) :
    Outcome.Conflicts (w.insert route leaf cs).1 := by
  cases w with
  | rest label value =>
    obtain ⟨words, hwords⟩ := conflict_words route cs label value.names ([], value.names)
    exact ⟨words, congrArg Except.error hwords⟩
  | parameter label value suffixes =>
    obtain ⟨⟨k, hk, rfl⟩, hsuffixes⟩ := sane
    -- behind its parameter the route ends or goes on with a slash, as the one does that is there
    have behind : ∀ {rest : List Cell} {ts' : List Token}, cs = parameterLabel k ++ rest → ts = .parameter :: ts' →
        Written rest ts' → rest = [] ∧ value.isSome = true ∨ ∃ cs' s us', rest = ⟨slash, false⟩ :: cs' ∧
          afterSegment suffixes = some s ∧ s.Occupied us' ∧ ts'.map Token.shape = us'.map Token.shape ∧
            Regular rest := by
      rintro rest ts' rfl rfl written
      rcases written.behind_parameter hk roomy.1 regular with ⟨rfl, rfl⟩ | ⟨cs', ts, rfl, rfl, -, inner⟩
      · cases occupied with
        | last => exact .inl ⟨rfl, rfl⟩
        | segment => cases same
      · cases occupied with
        | last => cases same
        | segment label value found below =>
          exact .inr ⟨cs', _, _, rfl, found, below, (List.cons.inj same).2, nofun, .inl inner⟩
    have unknown : ∀ {rest : List Cell} {ts' : List Token}, cs = parameterLabel k ++ rest → ts = .parameter :: ts' →
        Written rest ts' → rest ≠ [] → ¬∀ s ∈ suffixes, bytes s.label ≠ bytes (segmentOf rest) := by
      intro rest ts' hcs hts written ne others
      rcases behind hcs hts written with ⟨rfl, -⟩ | ⟨cs', s, us', rfl, known, -⟩
      · exact ne rfl
      · obtain ⟨mem, slash⟩ := afterSegment_mem known
        rw [segmentOf_slash] at others
        exact others s mem slash
    have hcases := insert_parameter_cases route leaf (parameterLabel k) value suffixes cs
    generalize (Wild.parameter (parameterLabel k) value suffixes).insert route leaf cs = r at hcases
    cases hcases with
    | conflict words => exact ⟨words, rfl⟩
    | free bytes nil none =>
      obtain ⟨rest, ts', rfl, rfl, written⟩ := h.at_parameter hk bytes
      rcases behind rfl rfl written with ⟨-, known⟩ | ⟨cs', s, us', rfl, -⟩
      · simp [none] at known
      · cases nil
    | @below rest before after t bytes hrest ne split first found =>
      obtain ⟨rest, ts', rfl, rfl, written⟩ := h.at_parameter hk bytes
      obtain rfl : rest = _ := hrest
      subst split
      rcases behind rfl rfl written with ⟨rfl, -⟩ | ⟨cs', s, us', rfl, known, below, same, inner⟩
      · exact absurd rfl ne
      rw [segmentOf_slash] at first found
      rw [afterSegment_first first found] at known
      cases known
      have mem : t ∈ before ++ t :: after := List.mem_append_right _ List.mem_cons_self
      exact ih t mem route leaf _ _ _ ((saneSuffixes_iff.mp hsuffixes t mem).slash found).2 written inner roomy.2 same
        below
    | @segment rest bytes hrest ne others holds =>
      obtain ⟨rest, ts', rfl, rfl, written⟩ := h.at_parameter hk bytes
      obtain rfl : rest = _ := hrest
      exact (unknown rfl rfl written ne others).elim
    | @grown rest bytes hrest ne others none =>
      obtain ⟨rest, ts', rfl, rfl, written⟩ := h.at_parameter hk bytes
      obtain rfl : rest = _ := hrest
      exact (unknown rfl rfl written ne others).elim

theorem bare_refuses {branches : List (UInt8 × Tree α)} {wild : Option (Wild α)}
    (ihBranches : ∀ b ∈ branches, b.2.Refuses) (ihWild : ∀ w ∈ wild, ∀ t ∈ Wild.suffixes w, t.Refuses)
    (hbranches : saneBranches True branches) (hwild : saneWild True wild) (route : List Cell) (leaf : Leaf α)
    (priority : Nat) (value : Option (Leaf α)) {cs : List Cell} {ts us : List Token} (h : Written cs ts)
    (regular : Regular cs) (roomy : Roomy ts) (same : ts.map Token.shape = us.map Token.shape)
    (occupied : Below Tree.Occupied value branches wild us) :
    Outcome.Conflicts (Tree.insert route leaf cs (.node [] priority value branches wild)).1 := by
  have hcases := insert_bare route leaf priority value branches wild cs
  generalize Tree.insert route leaf cs (.node [] priority value branches wild) = r at hcases
  cases occupied with
  | here old branches wild =>
    obtain rfl : ts = [] := List.map_eq_nil_iff.mp same
    obtain rfl := h.nil_of_tokens
    cases hcases with
    | taken old known => exact ⟨_, rfl⟩
    | free none => cases none
  | @branch _ _ _ b t us found below =>
    have first : ts.map Token.shape = (literal [b] ++ us).map Token.shape := same
    obtain ⟨ts', rfl, -⟩ := shape_literal first
    obtain ⟨c, cs, rfl, rfl, leads, -⟩ := Written.byte_first h
    cases hcases with
    | @branch _ _ s branches' leads known lookup members =>
      cases found.symm.trans known
      have mem := mem_of_lookup known
      exact ihBranches _ mem route leaf (c :: cs) _ _ (saneBranches_iff.mp hbranches _ mem) h regular roomy same below
    | wild opens => simp [(leads_iff.mp leads).1] at opens
    | grown opens none => cases found.symm.trans (none leads)
  | wild leaf branches below =>
    obtain ⟨t, us, rfl, notByte⟩ := below.head
    obtain ⟨t', ts, rfl, ht, -⟩ := List.map_eq_cons_iff.mp same
    obtain ⟨opening, c, cs, rfl, opens⟩ := h.opening_of_token (notByte_of_shape ht notByte)
    cases hcases with
    | branch leads known lookup members => simp [(leads_iff.mp leads).1] at opens
    | wild opens =>
      exact wild_refuses (ihWild _ rfl) (saneWild_some.mp hwild) route leaf opening regular roomy same below
    | grown closed none => simp [opens] at closed

/-- **Taken places are refused.** -/
theorem insert_refused : ∀ t : Tree α, t.Refuses := by
  refine Tree.induct ?_
  intro label priority value branches wild ihBranches ihWild route leaf cs ts us ⟨hlabel, hbranches, hwild⟩ h regular
    roomy same occupied
  obtain ⟨us', rfl, below⟩ := occupied.below_label
  obtain ⟨ts', rfl, same'⟩ := shape_literal same
  obtain ⟨cs', rfl, written, behind⟩ := h.label_cases hlabel regular
  rw [insert_withLabel]
  exact bare_refuses ihBranches ihWild hbranches hwild route leaf priority value written behind
    (roomy_literal.mp roomy) same' below

/-! ## Whole trees -/

/-- A tree without any text has no place but that of no route. -/
theorem Tree.Occupied.not_isBlank {t : Tree α} {us : List Token} (h : t.Occupied us) (ne : us ≠ []) : ¬t.IsBlank := by
  obtain ⟨label, priority, value, branches, wild⟩ := t
  rintro ⟨rfl, rfl, rfl⟩
  cases occupied_bare_iff.mp h with
  | here => exact ne rfl
  | branch leaf wild found => cases found

section
variable {t : Tree α} (sane : t.Sane True) {path : List UInt8} (value : α)
include sane

theorem add_occupied {route : List Cell} {names : Names} (normal : normalize (cells path) = .ok (route, names))
    {ts : List Token} (h : Written route ts) (regular : Regular route) (roomy : Roomy ts)
    (ok : (t.add path value).1 = .ok ()) : (t.add path value).2.Occupied ts := by
  by_cases blank : t.IsBlank
  · rw [(Tree.add_eq normal t).1 blank] at ok ⊢
    exact sprout_occupied _ _ _ route ts (Nat.lt_succ_self _) h regular roomy ok
  · rw [(Tree.add_eq normal t).2 blank] at ok ⊢
    exact insert_occupied t route _ route ts sane h regular roomy ok

theorem add_keeps {us : List Token} (ne : us ≠ []) (occupied : t.Occupied us) : (t.add path value).2.Occupied us := by
  cases normal : normalize (cells path) with
  | error fault =>
    simp only [Tree.add, normal]
    exact occupied
  | ok found =>
    obtain ⟨⟨ts, written⟩, regular⟩ := normalize_written normal
    rw [(Tree.add_eq normal t).2 (occupied.not_isBlank ne)]
    exact insert_keeps t _ _ _ ts us sane written regular occupied

theorem add_refused {route : List Cell} {names : Names} (normal : normalize (cells path) = .ok (route, names))
    {ts us : List Token} (h : Written route ts) (regular : Regular route) (roomy : Roomy ts)
    (same : ts.map Token.shape = us.map Token.shape) (ne : us ≠ []) (occupied : t.Occupied us) :
    Outcome.Conflicts (t.add path value).1 := by
  rw [(Tree.add_eq normal t).2 (occupied.not_isBlank ne)]
  exact insert_refused t route _ route ts us sane h regular roomy same occupied

end

end JsonService.Route
