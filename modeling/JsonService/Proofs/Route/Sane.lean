import JsonService.Proofs.Route.Nodes

/-!
# Insertion of any route

Whatever routes a tree is given, its nodes hold what was written in them: an insertion adds at most its own route, and
only if it succeeds (`Placed`). A text that may follow a parameter is never empty, but for one kind of node. If a
parameter and a brace right behind it meet, in one route the brace of a parameter, in another one that stands for
itself, the text of the node is split before that brace, and all routes of such a node go on with a brace (`Barred`).

**Sane trees.** `t.Sane regular` says so of every node, and of nodes above such places, if `regular`, that only braces
are marked in their texts.

**Results.**
* `sprout_placed`, `growWild_placed`: what is grown for a route.
* `insert_placed`, `add_placed`: what is inserted.
-/
namespace JsonService.Route

variable {α : Type}

/-! ## Sane trees -/

/-- Routes all of which go on with a brace, be it one that stands for itself. -/
def Barred (es : List (Entry α)) : Prop := ∀ e ∈ es, ∃ t, e.1.head? = some t ∧ ∀ b, t = .byte b → IsBrace b

/-- Literal text in which only braces are marked, if it has to be so. -/
def SaneLabel (regular : Prop) (label : List Cell) : Prop :=
  Literal label ∧ (regular → ∀ c ∈ label, c.escaped = true → IsBrace c.byte)

/-- A text in which a slash is the end. -/
def OneSegment (cs : List Cell) : Prop := ∀ before c after, cs = before ++ c :: after → c.byte = slash → after = []

theorem OneSegment.take {cs : List Cell} (h : OneSegment cs) (n : Nat) : OneSegment (cs.take n) := by
  intro before c after split hc
  have whole : cs = before ++ c :: (after ++ cs.drop n) := by
    conv_lhs => rw [← List.take_append_drop n cs, split]
    simp
  exact (List.append_eq_nil_iff.mp (h before c _ whole hc)).1

mutual

/-- A tree in which literal text is literal, parameters have letters for names, and nothing follows a parameter without
being told apart by its text, but for braces. If it is regular, only braces are marked above such places. -/
def Tree.Sane (regular : Prop) : Tree α → Prop
  | .node label _ _ branches wild =>
    SaneLabel regular label ∧ saneBranches regular branches ∧ saneWild regular wild

def saneBranches (regular : Prop) : List (UInt8 × Tree α) → Prop
  | [] => True
  | (_, t) :: rest => t.Sane regular ∧ saneBranches regular rest

def saneWild (regular : Prop) : Option (Wild α) → Prop
  | none => True
  | some w => w.Sane regular

def Wild.Sane (regular : Prop) : Wild α → Prop
  | .parameter label _ suffixes =>
    (∃ k, k < mostParameters ∧ label = parameterLabel k) ∧ saneSuffixes regular suffixes
  | .rest _ _ => True

def saneSuffixes (regular : Prop) : List (Tree α) → Prop
  | [] => True
  | t :: rest =>
    (t.Sane (regular ∧ TextFirst t.label) ∧ (regular → t.label = [] → Barred t.routes) ∧ OneSegment t.label) ∧
      saneSuffixes regular rest

end

/-- What may follow a parameter, in a sane tree. -/
def SaneSuffix (regular : Prop) (t : Tree α) : Prop :=
  t.Sane (regular ∧ TextFirst t.label) ∧ (regular → t.label = [] → Barred t.routes) ∧ OneSegment t.label

theorem saneBranches_iff {regular : Prop} {bs : List (UInt8 × Tree α)} :
    saneBranches regular bs ↔ ∀ b ∈ bs, b.2.Sane regular := by
  induction bs with
  | nil => simp [saneBranches]
  | cons b bs ih => rw [saneBranches, ih, List.forall_mem_cons]

theorem saneSuffixes_iff {regular : Prop} {ts : List (Tree α)} :
    saneSuffixes regular ts ↔ ∀ t ∈ ts, SaneSuffix regular t := by
  induction ts with
  | nil => simp [saneSuffixes]
  | cons t ts ih => rw [saneSuffixes, ih, List.forall_mem_cons, SaneSuffix]

@[simp] theorem saneBranches_nil {regular : Prop} : saneBranches regular ([] : List (UInt8 × Tree α)) := by
  simp [saneBranches]

@[simp] theorem saneWild_none {regular : Prop} : saneWild regular (none : Option (Wild α)) := by
  simp [saneWild]

@[simp] theorem saneWild_some {regular : Prop} {w : Wild α} : saneWild regular (some w) ↔ w.Sane regular := by
  rw [saneWild]

/-! ## What an insertion adds -/

/-- Of new routes there is at most this one, and only if the insertion succeeded. -/
def Adds (old new : List (Entry α)) (e : Entry α) (outcome : Outcome) : Prop :=
  ∀ x ∈ new, x ∈ old ∨ outcome = .ok () ∧ x = e

namespace Adds

variable {old new : List (Entry α)} {e : Entry α} {outcome : Outcome}

theorem nothing (es : List (Entry α)) (e : Entry α) (outcome : Outcome) : Adds es es e outcome := fun _ => .inl

theorem added (es : List (Entry α)) (e : Entry α) : Adds es (e :: es) e (.ok ()) := by
  intro x hx
  rcases List.mem_cons.mp hx with rfl | hx
  · exact .inr ⟨rfl, rfl⟩
  · exact .inl hx

theorem mono {old' new' : List (Entry α)} (h : Adds old new e outcome) (hold : ∀ x ∈ old, x ∈ old')
    (hnew : ∀ x ∈ new', x ∈ new ∨ x ∈ old') : Adds old' new' e outcome := by
  intro x hx
  rcases hnew x hx with hx | hx
  · exact (h x hx).imp_left (hold x)
  · exact .inl hx

theorem prefixed (ts : List Token) (h : Adds old new e outcome) :
    Adds (prefixed ts old) (prefixed ts new) (ts ++ e.1, e.2) outcome := by
  intro x hx
  obtain ⟨y, hy, rfl⟩ := mem_prefixed.mp hx
  rcases h y hy with hy | ⟨ok, rfl⟩
  · exact .inl (mem_prefixed.mpr ⟨y, hy, rfl⟩)
  · exact .inr ⟨ok, rfl⟩

theorem among (before after : List (Entry α)) (h : Adds old new e outcome) :
    Adds (before ++ old ++ after) (before ++ new ++ after) e outcome := by
  refine h.mono (fun x hx => ?_) fun x hx => ?_
  · simp [hx]
  · simp only [List.mem_append] at hx ⊢
    tauto

end Adds

/-- An insertion is in place: the tree is sane, and of new routes it has at most the inserted one. -/
structure Placed (regular : Prop) (old : List (Entry α)) (e : Entry α) (r : Outcome × Tree α) : Prop where
  sane : r.2.Sane regular
  adds : Adds old r.2.routes e r.1

/-- The same at a node for any text. -/
structure PlacedWild (regular : Prop) (old : List (Entry α)) (e : Entry α) (r : Outcome × Option (Wild α)) : Prop where
  sane : saneWild regular r.2
  adds : Adds old (wildRoutes r.2) e r.1

/-! ## What is grown for a route -/

theorem saneLabel_nil (regular : Prop) : SaneLabel regular [] := ⟨nofun, nofun⟩

theorem saneLabel_of_regular {regular : Prop} {lit cs : List Cell} (hlit : Literal lit)
    (h : regular → Regular (lit ++ cs)) : SaneLabel regular lit := ⟨hlit, fun r => (h r).marks hlit⟩

theorem Regular.behind {lit cs : List Cell} (h : Regular (lit ++ cs)) (hlit : Literal lit) : Regular cs :=
  h.drop fun c hc => (leads_iff.mp (hlit c hc)).2

section
variable {regular : Prop} {label : List Cell} {e : Entry α} {outcome : Outcome}

theorem placed_node (hlabel : SaneLabel regular label) (priority : Nat) {value : Option (Leaf α)}
    {branches : List (UInt8 × Tree α)} {wild : Option (Wild α)} (hbranches : saneBranches regular branches)
    (hwild : saneWild regular wild) {es : List (Entry α)}
    (h : Adds es (leafRoutes value ++ branchRoutes branches ++ wildRoutes wild) e outcome) :
    Placed regular (prefixed (literal (bytes label)) es) (literal (bytes label) ++ e.1, e.2)
      (outcome, .node label priority value branches wild) where
  sane := ⟨hlabel, hbranches, hwild⟩
  adds := by
    rw [Tree.routes]
    exact h.prefixed _

theorem placed_failed (hlabel : SaneLabel regular label) (priority : Nat) (e : Entry α) (outcome : Outcome) :
    Placed regular [] e (outcome, .node label priority none [] none) where
  sane := ⟨hlabel, trivial, saneWild_none⟩
  adds := by
    simp only [Tree.routes, leafRoutes_none, branchRoutes, wildRoutes, List.append_nil, prefixed_nil]
    exact .nothing _ _ _

theorem placed_leaf (hlabel : SaneLabel regular label) (priority : Nat) (leaf : Leaf α) :
    Placed regular [] (literal (bytes label), leaf) (.ok (), .node label priority (some leaf) [] none) := by
  have adds : Adds [] (leafRoutes (some leaf) ++ branchRoutes [] ++ wildRoutes none) ([], leaf) (.ok ()) :=
    Adds.added [] _
  have placed := placed_node hlabel priority saneBranches_nil saneWild_none adds
  rwa [List.append_nil] at placed

theorem placed_branch (hlabel : SaneLabel regular label) (priority : Nat) (key : UInt8) {t : Tree α}
    (h : Placed regular [] e (outcome, t)) :
    Placed regular [] (literal (bytes label) ++ e.1, e.2) (outcome, .node label priority none [(key, t)] none) := by
  have branches : saneBranches regular [(key, t)] := saneBranches_iff.mpr (by simpa using h.sane)
  have adds : Adds [] (leafRoutes none ++ branchRoutes [(key, t)] ++ wildRoutes none) e outcome := by
    simpa [branchRoutes, wildRoutes] using h.adds
  exact placed_node hlabel priority branches saneWild_none adds

theorem placed_wild (hlabel : SaneLabel regular label) (priority : Nat) {wild : Option (Wild α)}
    (h : PlacedWild regular [] e (outcome, wild)) :
    Placed regular [] (literal (bytes label) ++ e.1, e.2) (outcome, .node label priority none [] wild) := by
  have adds : Adds [] (leafRoutes none ++ branchRoutes [] ++ wildRoutes wild) e outcome := by
    simpa [branchRoutes] using h.adds
  exact placed_node hlabel priority saneBranches_nil h.sane adds

end

/-- What is grown for a segment that follows a parameter. -/
def GrowsSuffix (leaf : Leaf α) (grow : List Cell → List Cell → Outcome × Tree α) : Prop :=
  ∀ (regular : Prop) (suffix cs : List Cell) (ts : List Token), SaneLabel regular suffix → Written cs ts →
    (regular → Regular cs) →
      (grow suffix cs).2.label = suffix ∧ Placed regular [] (literal (bytes suffix) ++ ts, leaf) (grow suffix cs)

theorem oneSegment_segmentOf (cs : List Cell) : OneSegment (segmentOf cs) := by
  intro before c after split hc
  have whole : cs = (before ++ [c]) ++ (after ++ cs.drop (segmentLength cs)) := by
    conv_lhs => rw [← segmentOf_append_drop cs, split]
    simp
  have short : segmentLength cs ≤ (before ++ [c]).length := by
    conv_lhs => rw [whole]
    exact segmentLength_le_of_slash (List.mem_append_right _ (List.mem_singleton_self c)) hc _
  have length := congrArg List.length split
  have le := segmentLength_le cs
  simp only [segmentOf, List.length_take, List.length_append, List.length_cons, List.length_nil] at length short
  exact List.length_eq_zero_iff.mp (by omega)

theorem grown_suffix {leaf : Leaf α} {grow : List Cell → List Cell → Outcome × Tree α} (hgrow : GrowsSuffix leaf grow)
    {regular : Prop} {cs : List Cell} {ts : List Token} (h : Written cs ts) (ne : cs ≠ [])
    (none : holdsParameter (segmentOf cs) = false) (behind : regular → Regular cs ∨ BraceFirst cs) :
    SaneSuffix regular (grow (segmentOf cs) (cs.drop (segmentLength cs))).2 ∧
      Adds [] (grow (segmentOf cs) (cs.drop (segmentLength cs))).2.routes (ts, leaf)
        (grow (segmentOf cs) (cs.drop (segmentLength cs))).1 := by
  obtain ⟨ts', hlit, rfl, written⟩ := h.segment none
  -- behind the parameter the route is regular, unless a brace follows
  have hregular : regular ∧ TextFirst (segmentOf cs) → Regular (segmentOf cs ++ cs.drop (segmentLength cs)) := by
    rintro ⟨r, text⟩
    rw [segmentOf_append_drop]
    exact (behind r).resolve_right (text.congr (head?_segmentOf cs)).not_braceFirst
  obtain ⟨hlabel, sane, adds⟩ := hgrow (regular ∧ TextFirst (segmentOf cs)) (segmentOf cs)
    (cs.drop (segmentLength cs)) ts' (saneLabel_of_regular hlit hregular) written fun r => (hregular r).behind hlit
  have inner : OneSegment (grow (segmentOf cs) (cs.drop (segmentLength cs))).2.label := by
    rw [hlabel]
    exact oneSegment_segmentOf cs
  exact ⟨⟨by rwa [hlabel], fun _ nil => absurd (hlabel ▸ nil) (segmentOf_ne_nil ne), inner⟩, adds⟩

/-- A new parameter, and what follows it in its segment. -/
theorem sproutWild_placed {leaf : Leaf α} {grow : List Cell → List Cell → Outcome × Tree α}
    (hgrow : GrowsSuffix leaf grow) {regular : Prop} {cs : List Cell} {ts : List Token} (h : Opening cs ts)
    (hregular : regular → Regular cs) {count : Nat} (hfind : findParameter cs = .ok (some (0, count))) :
    PlacedWild regular [] (ts, leaf) (sproutWild grow leaf count cs) := by
  cases h with
  | @parameter cs ts k hk h =>
    obtain rfl : count = 3 := by
      rw [findParameter_parameter hk] at hfind
      cases hfind
      rfl
    rw [sproutWild_eq_parameter grow leaf hk]
    split
    · exact ⟨saneWild_none, .nothing _ _ _⟩
    next holds =>
    split
    · next empty =>
      rw [h.eq_nil empty]
      exact ⟨saneWild_some.mpr ⟨⟨k, hk, rfl⟩, trivial⟩, (Adds.added [] ([], leaf)).prefixed [.parameter]⟩
    · next ne =>
      obtain ⟨suffix, adds⟩ := grown_suffix hgrow h ne (by simpa using holds) fun r =>
        (hregular r).drop_braces (letter_open hk)
      refine ⟨saneWild_some.mpr ⟨⟨k, hk, rfl⟩, saneSuffixes_iff.mpr (by simpa using suffix)⟩, ?_⟩
      have prefixed := adds.prefixed [.parameter]
      simpa [wildRoutes, Wild.routes, suffixRoutes] using prefixed
  | @rest label cs ts hstar h =>
    obtain rfl : count = label.length := by
      obtain ⟨name, rfl, -, -, found⟩ := hstar
      rw [found] at hfind
      cases hfind
      rfl
    rw [sproutWild_eq_rest grow leaf hstar]
    split
    · next nil =>
      rw [h.eq_nil nil]
      exact ⟨saneWild_some.mpr trivial, Adds.added [] ([.rest _], leaf)⟩
    · exact ⟨saneWild_none, .nothing _ _ _⟩

mutual

theorem sprout_placed (leaf : Leaf α) : ∀ (fuel priority : Nat) (regular : Prop) (cs : List Cell) (ts : List Token),
    Written cs ts → (regular → Regular cs) → Placed regular [] (ts, leaf) (sprout leaf priority fuel cs)
  | 0, priority, regular, _, _, _, _ => placed_failed (saneLabel_nil regular) priority _ _
  | fuel + 1, priority, regular, cs, ts, h, hregular => by
    obtain ⟨lit, cs', ts', rfl, rfl, hlit, tail⟩ := h.exists_literal
    have hlabel : SaneLabel regular lit := saneLabel_of_regular hlit hregular
    rcases tail with ⟨rfl, rfl⟩ | opening
    · rw [List.append_nil, List.append_nil, sprout, findParameter_literal_only hlit]
      exact placed_leaf hlabel priority leaf
    · obtain ⟨label, more, rfl, -, -, found⟩ := opening.exists_label
      have placed := sproutWild_placed (sproutSuffix_grows leaf fuel) opening (fun r => (hregular r).behind hlit)
        (found more)
      simp only [sprout, findParameter_literal hlit, found, Except.map, Option.map, Nat.zero_add, List.drop_left',
        List.take_left']
      split
      · exact placed_failed (saneLabel_nil regular) priority _ _
      · next outcome wild _ heq =>
        rw [heq] at placed
        exact placed_wild hlabel priority placed

theorem sproutSuffix_grows (leaf : Leaf α) : ∀ fuel : Nat, GrowsSuffix leaf (sproutSuffix leaf fuel)
  | 0, _, _, _, _, hsuffix, _, _ => ⟨rfl, placed_failed hsuffix 1 _ _⟩
  | fuel + 1, regular, suffix, cs, ts, hsuffix, h, hregular => by
    cases cs with
    | nil =>
      rw [h.eq_nil rfl, List.append_nil]
      exact ⟨rfl, placed_leaf hsuffix 1 leaf⟩
    | cons c cs =>
      rw [sproutSuffix]
      by_cases opens : c.opens = true
      · rw [if_pos opens]
        have opening : Opening (c :: cs) ts := h.opening opens
        obtain ⟨label, more, heq, -, -, found⟩ := opening.exists_label
        have hfind := found more
        rw [← heq] at hfind
        have placed := sproutWild_placed (sproutSuffix_grows leaf fuel) opening hregular hfind
        simp only [hfind]
        exact ⟨rfl, placed_wild hsuffix 1 placed⟩
      · rw [if_neg opens]
        have placed := sprout_placed leaf fuel 1 regular (c :: cs) ts h hregular
        exact ⟨rfl, placed_branch hsuffix 1 c.byte placed⟩

end

theorem growWild_placed (leaf : Leaf α) {regular : Prop} {cs : List Cell} {ts : List Token} (h : Opening cs ts)
    (hregular : regular → Regular cs) : PlacedWild regular [] (ts, leaf) (growWild leaf cs) := by
  obtain ⟨label, more, rfl, -, -, found⟩ := h.exists_label
  rw [growWild, found more]
  exact sproutWild_placed (sproutSuffix_grows leaf _) h hregular (found more)

/-! ## Insertion -/

theorem prefixed_literal_nil (es : List (Entry α)) : prefixed (literal (bytes [])) es = es := by
  simp [prefixed, bytes]

section
variable {label : List Cell} {regular : Prop}

theorem routes_label (label label' : List Cell) (priority : Nat) (value : Option (Leaf α))
    (branches : List (UInt8 × Tree α)) (wild : Option (Wild α)) :
    (Tree.node (label ++ label') priority value branches wild).routes =
      prefixed (literal (bytes label)) (Tree.node label' priority value branches wild).routes := by
  rw [Tree.routes, Tree.routes, prefixed_prefixed, ← literal_append, bytes, bytes, bytes, List.map_append]

/-- A node with a text is in place if the same node without it is. -/
theorem Placed.withLabel (hlabel : SaneLabel regular label) {es : List (Entry α)} {e : Entry α} {r : Outcome × Tree α}
    (bare : r.2.label = []) (h : Placed regular es e r) :
    Placed regular (prefixed (literal (bytes label)) es) (literal (bytes label) ++ e.1, e.2)
      (r.1, r.2.withLabel label) := by
  obtain ⟨outcome, text, priority, value, branches, wild⟩ := r
  obtain rfl : text = [] := bare
  obtain ⟨⟨-, inner⟩, adds⟩ := h
  refine ⟨⟨hlabel, inner⟩, ?_⟩
  have whole := routes_label label [] priority value branches wild
  rw [List.append_nil] at whole
  rw [Tree.withLabel, whole]
  exact adds.prefixed _

end

theorem suffixRoutes_eq (ts : List (Tree α)) : suffixRoutes ts = ts.flatMap Tree.routes := by
  induction ts with
  | nil => rfl
  | cons t ts ih => rw [suffixRoutes, ih, List.flatMap_cons]

/-- A tree that is sane is so if less is regular. -/
def Tree.Lessens (t : Tree α) : Prop := ∀ p q : Prop, (q → p) → t.Sane p → t.Sane q

theorem sane_mono : ∀ t : Tree α, t.Lessens := by
  refine Tree.induct ?_
  intro label priority value branches wild ihBranches ihWild p q less h
  obtain ⟨⟨hlit, marks⟩, hbranches, hwild⟩ := h
  refine ⟨⟨hlit, fun r => marks (less r)⟩, ?_, ?_⟩
  · rw [saneBranches_iff] at hbranches ⊢
    exact fun b hb => ihBranches b hb p q less (hbranches b hb)
  · cases wild with
    | none => exact saneWild_none
    | some w =>
      rw [saneWild_some] at hwild ⊢
      cases w with
      | rest label leaf => trivial
      | parameter label leaf suffixes =>
        obtain ⟨letters, hsuffixes⟩ := hwild
        refine ⟨letters, saneSuffixes_iff.mpr fun t ht => ?_⟩
        obtain ⟨sane, barred, inner⟩ := saneSuffixes_iff.mp hsuffixes t ht
        exact ⟨ihWild _ rfl t ht _ _ (fun hex => ⟨less hex.1, hex.2⟩) sane, fun r => barred (less r), inner⟩

/-- Which cells may reach a node of a parameter: those that begin with one. -/
theorem Opening.parameter_of_bytes {cs : List Cell} {ts : List Token} (h : Opening cs ts) {k : Nat}
    (hk : k < mostParameters)
    (same : bytes (cs.take (parameterLabel k).length) = bytes (parameterLabel k)) : ∃ ts',
      ts = .parameter :: ts' ∧ Written (cs.drop (parameterLabel k).length) ts' ∧
        (Regular cs → Regular (cs.drop (parameterLabel k).length) ∨
          BraceFirst (cs.drop (parameterLabel k).length)) := by
  cases h with
  | parameter k' hk' h => exact ⟨_, rfl, h, fun regular => regular.drop_braces (letter_open hk')⟩
  | @rest label cs ts hstar h =>
    obtain ⟨name, rfl, proper, rest, -⟩ := hstar
    cases name with
    | nil => exact absurd rfl proper.notNil
    | cons c name =>
      have first : c.byte = star := by simpa [Raw.isRest, bytes] using rest
      have second := congrArg (·[1]?) same
      simp [parameterLabel, Raw.cells, bytes, first, Ne.symm (letter_ne hk).2.1] at second

theorem Opening.head {cs : List Cell} {ts : List Token} (h : Opening cs ts) :
    ∃ t, ts.head? = some t ∧ ∀ b, t ≠ .byte b := by
  cases h
  · exact ⟨_, rfl, nofun⟩
  · exact ⟨_, rfl, nofun⟩

/-- What is inserted below a text that follows a parameter. -/
def Tree.InsertsPlaced (t : Tree α) : Prop :=
  ∀ (regular : Prop) (route : List Cell) (leaf : Leaf α) (cs : List Cell) (ts : List Token), t.Sane regular →
    Written cs ts → (regular → Regular cs) → Placed regular t.routes (ts, leaf) (t.insert route leaf cs)

/-- Inserting below a text that follows a parameter leaves a text there, or only routes that go on with a brace. -/
theorem suffix_inserted {t : Tree α} (ih : t.InsertsPlaced) {regular : Prop} (h : SaneSuffix regular t)
    (route : List Cell) (leaf : Leaf α) {cs : List Cell} {ts : List Token} (written : Written cs ts) (ne : cs ≠ [])
    (behind : regular → Regular cs ∨ BraceFirst cs) (same : bytes t.label = bytes (segmentOf cs)) :
    SaneSuffix regular (t.insert route leaf cs).2 ∧
      Adds t.routes (t.insert route leaf cs).2.routes (ts, leaf) (t.insert route leaf cs).1 := by
  have hne : t.label ≠ [] := by
    intro nil
    rw [nil] at same
    exact segmentOf_ne_nil ne (List.map_eq_nil_iff.mp same.symm)
  have heads : t.label.head?.map (·.byte) = cs.head?.map (·.byte) := by
    have := congrArg List.head? same
    rwa [bytes, bytes, List.head?_map, List.head?_map, head?_segmentOf] at this
  have hregular : regular ∧ TextFirst t.label → Regular cs :=
    fun hex => (behind hex.1).resolve_right (hex.2.congr heads).not_braceFirst
  obtain ⟨sane, adds⟩ := ih _ route leaf cs ts h.1 written hregular
  obtain ⟨label, priority, value, branches, wild⟩ := t
  obtain ⟨c, cs, rfl⟩ := List.exists_cons_of_ne_nil ne
  obtain ⟨d, label, rfl⟩ := List.exists_cons_of_ne_nil hne
  have hlabel : (Tree.insert route leaf (c :: cs) (.node (d :: label) priority value branches wild)).2.label =
      (d :: label).take (commonLength (c :: cs) (d :: label)) := label_insert _ _ _ _
  have hbyte : d.byte = c.byte := Option.some.inj heads
  refine ⟨⟨sane_mono _ _ _ ?_ sane, fun r nil => ?_, hlabel ▸ h.2.2.take _⟩, adds⟩
  · rintro ⟨r, x, head, text⟩
    rw [hlabel, List.head?_take] at head
    split at head
    · cases head
    · exact ⟨r, x, head, text⟩
  · -- the two first cells are the same byte, one of them marked, so it is a brace
    have parted : c ≠ d := by
      rw [hlabel, List.take_eq_nil_iff] at nil
      exact commonLength_eq_zero (nil.resolve_right (List.cons_ne_nil _ _))
    have brace : IsBrace d.byte := by
      by_contra text
      have first : TextFirst (d :: label) := ⟨d, rfl, text⟩
      have hd : d.escaped = false := by
        by_contra marked
        exact text (h.1.1.2 ⟨r, first⟩ d List.mem_cons_self (by simpa using marked))
      have hc : c.escaped = false := by
        by_contra marked
        exact text (hbyte ▸ (hregular ⟨r, first⟩).1 (by simpa using marked))
      obtain ⟨b, e⟩ := c
      obtain ⟨b', e'⟩ := d
      simp_all
    intro x hx
    rcases adds x hx with old | ⟨-, rfl⟩
    · rw [Tree.routes] at old
      obtain ⟨y, -, rfl⟩ := mem_prefixed.mp old
      exact ⟨_, rfl, fun b hb => Token.byte.inj hb ▸ brace⟩
    · by_cases opens : c.opens = true
      · obtain ⟨t, head, open_⟩ := (written.opening opens).head
        exact ⟨t, head, fun b hb => absurd hb (open_ b)⟩
      · obtain ⟨-, ts', rfl, -⟩ := written.byte_cases (by simpa using opens)
        exact ⟨_, rfl, fun b hb => Token.byte.inj hb ▸ hbyte ▸ brace⟩

theorem saneSuffixes_between {regular : Prop} {before after : List (Tree α)} {t t' : Tree α}
    (h : saneSuffixes regular (before ++ t :: after)) (ht : SaneSuffix regular t') :
    saneSuffixes regular (before ++ t' :: after) := by
  rw [saneSuffixes_iff, List.forall_mem_append, List.forall_mem_cons] at h ⊢
  exact ⟨h.1, ht, h.2.2⟩

theorem insertWild_placed {wild : Option (Wild α)} (ih : ∀ w ∈ wild, ∀ t ∈ Wild.suffixes w, t.InsertsPlaced)
    {regular : Prop} (sane : saneWild regular wild) (route : List Cell) (leaf : Leaf α) {cs : List Cell}
    {ts : List Token} (h : Opening cs ts) (hregular : regular → Regular cs) :
    PlacedWild regular (wildRoutes wild) (ts, leaf) (insertWild route leaf cs wild) := by
  cases wild with
  | none => exact growWild_placed leaf h hregular
  | some w =>
    have refused : ∀ o, PlacedWild regular w.routes (ts, leaf) (o, some w) := fun o => ⟨sane, .nothing _ _ _⟩
    cases w with
    | rest label value => exact refused _
    | parameter label value suffixes =>
      obtain ⟨⟨k, hk, rfl⟩, hsuffixes⟩ := saneWild_some.mp sane
      have letters : ∃ k', k' < mostParameters ∧ parameterLabel k = parameterLabel k' := ⟨k, hk, rfl⟩
      have hcases := insert_parameter_cases route leaf (parameterLabel k) value suffixes cs
      rw [insertWild]
      generalize (Wild.parameter (parameterLabel k) value suffixes).insert route leaf cs = r at hcases
      cases hcases with
      | conflict words => exact refused _
      | segment => exact refused _
      | free same nil none =>
        obtain ⟨ts', rfl, written, -⟩ := h.parameter_of_bytes hk same
        rw [written.eq_nil nil, none]
        refine ⟨saneWild_some.mpr ⟨letters, hsuffixes⟩, ?_⟩
        exact (Adds.added (suffixRoutes suffixes) ([], leaf)).prefixed [.parameter]
      | @below rest before after t same hrest ne split first found =>
        obtain ⟨ts', rfl, written, behind⟩ := h.parameter_of_bytes hk same
        subst hrest split
        have mem : t ∈ Wild.suffixes (.parameter (parameterLabel k) value (before ++ t :: after)) :=
          List.mem_append_right _ List.mem_cons_self
        obtain ⟨suffix, adds⟩ := suffix_inserted (ih _ rfl t mem) (saneSuffixes_iff.mp hsuffixes t mem) route leaf
          written ne (fun r => behind (hregular r)) found
        refine ⟨saneWild_some.mpr ⟨letters, saneSuffixes_between hsuffixes suffix⟩, ?_⟩
        have among := (adds.among (leafRoutes value ++ suffixRoutes before) (suffixRoutes after)).prefixed [.parameter]
        simpa [wildRoutes, Wild.routes, suffixRoutes_eq] using among
      | @grown rest same hrest ne others none =>
        obtain ⟨ts', rfl, written, behind⟩ := h.parameter_of_bytes hk same
        subst hrest
        obtain ⟨suffix, adds⟩ := grown_suffix (sproutSuffix_grows leaf _) written ne none fun r => behind (hregular r)
        refine ⟨saneWild_some.mpr ⟨letters, saneSuffixes_iff.mpr fun s hs => ?_⟩, ?_⟩
        · rcases insertSuffix_mem _ _ s hs with rfl | hs
          · exact suffix
          · exact saneSuffixes_iff.mp hsuffixes s hs
        · refine Adds.prefixed [.parameter] (adds.mono (List.forall_mem_nil _) fun x hx => ?_)
          rw [suffixRoutes_eq, List.mem_append, List.mem_flatMap] at hx
          rcases hx with hx | ⟨s, hs, hx⟩
          · exact .inr (List.mem_append_left _ hx)
          · rcases insertSuffix_mem _ _ s hs with rfl | hs
            · exact .inl hx
            · refine .inr (List.mem_append_right _ ?_)
              rw [suffixRoutes_eq]
              exact List.mem_flatMap.mpr ⟨s, hs, hx⟩

section
variable {regular : Prop} {branches branches' : List (UInt8 × Tree α)} {key : UInt8} {t : Tree α}
  (members : ∀ b ∈ branches', b = (key, t) ∨ b ∈ branches)
include members

theorem saneBranches_changed (h : saneBranches regular branches) (ht : t.Sane regular) :
    saneBranches regular branches' := by
  rw [saneBranches_iff] at h ⊢
  intro b hb
  rcases members b hb with rfl | hb
  · exact ht
  · exact h b hb

theorem Adds.of_branch {old : List (Entry α)} {e : Entry α} {outcome : Outcome} (h : Adds old t.routes e outcome)
    (hold : ∀ x ∈ old, x ∈ branchRoutes branches) :
    Adds (branchRoutes branches) (branchRoutes branches') e outcome := by
  refine h.mono hold fun x hx => ?_
  rw [branchRoutes_eq] at hx ⊢
  obtain ⟨b, hb, hx⟩ := List.mem_flatMap.mp hx
  rcases members b hb with rfl | hb
  · exact .inl hx
  · exact .inr (List.mem_flatMap.mpr ⟨b, hb, hx⟩)

end

theorem bare_placed {branches : List (UInt8 × Tree α)} {wild : Option (Wild α)}
    (ihBranches : ∀ b ∈ branches, b.2.InsertsPlaced)
    (ihWild : ∀ w ∈ wild, ∀ t ∈ Wild.suffixes w, t.InsertsPlaced) {regular : Prop}
    (hbranches : saneBranches regular branches) (hwild : saneWild regular wild) (route : List Cell) (leaf : Leaf α)
    (priority : Nat) (value : Option (Leaf α)) {cs : List Cell} {ts : List Token} (h : Written cs ts)
    (hregular : regular → Regular cs) :
    Placed regular (leafRoutes value ++ branchRoutes branches ++ wildRoutes wild) (ts, leaf)
      (Tree.insert route leaf cs (.node [] priority value branches wild)) := by
  -- a node without text is in place if what it holds is
  have node : ∀ {e : Entry α} {outcome value' branches' wild'}, saneBranches regular branches' →
      saneWild regular wild' → Adds (leafRoutes value ++ branchRoutes branches ++ wildRoutes wild)
        (leafRoutes value' ++ branchRoutes branches' ++ wildRoutes wild') e outcome →
      Placed regular (leafRoutes value ++ branchRoutes branches ++ wildRoutes wild) e
        (outcome, .node [] (priority + 1) value' branches' wild') := by
    intro e outcome value' branches' wild' sane saneWild adds
    have placed := placed_node (saneLabel_nil regular) (priority + 1) sane saneWild adds
    rwa [prefixed_literal_nil] at placed
  have hcases := insert_bare route leaf priority value branches wild cs
  generalize Tree.insert route leaf cs (.node [] priority value branches wild) = r at hcases
  cases hcases with
  | taken old known => exact node hbranches hwild (.nothing _ _ _)
  | free none =>
    rw [h.eq_nil rfl, none]
    rw [none] at node
    exact node hbranches hwild (.added _ _)
  | @branch c cs t branches' leads known lookup members =>
    have mem := mem_of_lookup known
    obtain ⟨sane, adds⟩ := ihBranches _ mem regular route leaf (c :: cs) ts (saneBranches_iff.mp hbranches _ mem) h
      hregular
    have below := Adds.of_branch members adds fun x hx => by
      rw [branchRoutes_eq]
      exact List.mem_flatMap.mpr ⟨_, mem, hx⟩
    exact node (saneBranches_changed members hbranches sane) hwild (below.among (leafRoutes value) (wildRoutes wild))
  | wild opens =>
    obtain ⟨sane, adds⟩ := insertWild_placed ihWild hwild route leaf (h.opening opens) hregular
    refine node hbranches sane ?_
    simpa using adds.among (leafRoutes value ++ branchRoutes branches) []
  | @grown c cs opens none =>
    obtain ⟨sane, adds⟩ := sprout_placed leaf (cs.length + 2) 1 regular (c :: cs) ts h hregular
    have members := addBranch_mem c.byte (sprout leaf 1 (cs.length + 2) (c :: cs)).2 branches
    have below := Adds.of_branch members adds nofun
    exact node (saneBranches_changed members hbranches sane) hwild (below.among (leafRoutes value) (wildRoutes wild))

theorem SaneLabel.split {regular : Prop} {upper lower : List Cell} (h : SaneLabel regular (upper ++ lower)) :
    SaneLabel regular upper ∧ SaneLabel regular lower := by
  obtain ⟨hlit, marks⟩ := h
  obtain ⟨hupper, hlower⟩ := literal_append_iff.mp hlit
  exact ⟨⟨hupper, fun r c hc => marks r c (List.mem_append_left _ hc)⟩,
    ⟨hlower, fun r c hc => marks r c (List.mem_append_right _ hc)⟩⟩

/-- What an insertion comes to at a node whose text it splits. -/
theorem insertSplit_placed {regular : Prop} (lower : UInt8 × Tree α) (hlower : lower.2.Sane regular) {upper : List Cell}
    (hupper : SaneLabel regular upper) (priority : Nat) (leaf : Leaf α) {cs : List Cell} {ts : List Token}
    (h : Written cs ts) (hregular : regular → Regular cs) :
    Placed regular (prefixed (literal (bytes upper)) lower.2.routes) (literal (bytes upper) ++ ts, leaf)
      (insertSplit leaf priority upper lower cs) := by
  have sane : saneBranches regular [lower] := saneBranches_iff.mpr (by simpa using hlower)
  have routes : branchRoutes [lower] = lower.2.routes := by rw [branchRoutes, branchRoutes, List.append_nil]
  cases cs with
  | nil =>
    rw [h.eq_nil rfl, insertSplit]
    refine placed_node (e := ([], leaf)) hupper (priority + 1) sane saneWild_none ?_
    rw [routes]
    simpa [wildRoutes] using Adds.added lower.2.routes ([], leaf)
  | cons c rest =>
    rw [insertSplit]
    by_cases opens : c.opens = true
    · obtain ⟨saneWild, adds⟩ := growWild_placed leaf (h.opening opens) hregular
      rw [if_pos opens]
      refine placed_node (e := (ts, leaf)) hupper (priority + 1) sane saneWild ?_
      rw [routes]
      simpa using adds.among lower.2.routes []
    · obtain ⟨grown, adds⟩ := sprout_placed leaf (rest.length + 2) 1 regular (c :: rest) ts h hregular
      rw [if_neg opens]
      have members := addBranch_mem c.byte (sprout leaf 1 (rest.length + 2) (c :: rest)).2 [lower]
      have below := Adds.of_branch members adds (List.forall_mem_nil _)
      rw [routes] at below
      refine placed_node (e := (ts, leaf)) hupper (priority + 1) (saneBranches_changed members sane grown)
        saneWild_none ?_
      simpa [wildRoutes] using below

/-- **Insertion of any route.** Whatever was inserted before, an insertion leaves a sane tree, and of new routes at most
its own, which it has only if the insertion succeeds. -/
theorem insert_placed : ∀ t : Tree α, t.InsertsPlaced := by
  refine Tree.induct ?_
  intro label priority value branches wild ihBranches ihWild regular route leaf cs ts sane h hregular
  obtain ⟨hlabel, hbranches, hwild⟩ := sane
  rcases insert_cases route leaf label priority value branches wild cs with ⟨cs', rfl, inserted⟩ |
    ⟨upper, x, lower, cs', rfl, rfl, -, inserted⟩
  · obtain ⟨ts', rfl, written⟩ := h.literal_cases hlabel.1
    have placed := bare_placed ihBranches ihWild hbranches hwild route leaf priority value written
      fun r => (hregular r).behind hlabel.1
    rw [inserted, Tree.routes]
    exact placed.withLabel hlabel (label_insert_bare _ _ _ _ _ _ _)
  · obtain ⟨hupper, hlower⟩ := hlabel.split
    obtain ⟨ts', rfl, written⟩ := h.literal_cases hupper.1
    rw [inserted, routes_label]
    exact insertSplit_placed (x.byte, .node (x :: lower) priority value branches wild) ⟨hlower, hbranches, hwild⟩
      hupper priority leaf written fun r => (hregular r).behind hupper.1

/-- A route that gets to a whole tree. -/
theorem add_placed {t : Tree α} {regular : Prop} (sane : t.Sane regular) {path : List UInt8} (value : α)
    {route : List Cell} {names : Names} (normal : normalize (cells path) = .ok (route, names)) {ts : List Token}
    (h : Written route ts) (hregular : Regular route) :
    Placed regular t.routes (ts, ⟨value, names⟩) (t.add path value) := by
  by_cases blank : t.IsBlank
  · rw [(Tree.add_eq normal t).1 blank]
    obtain ⟨sane, adds⟩ := sprout_placed ⟨value, names⟩ (route.length + 1) (t.priority + 1) regular route ts h
      fun _ => hregular
    exact ⟨sane, adds.mono nofun fun x hx => .inl hx⟩
  · rw [(Tree.add_eq normal t).2 blank]
    exact insert_placed t regular route ⟨value, names⟩ route ts sane h fun _ => hregular

end JsonService.Route
