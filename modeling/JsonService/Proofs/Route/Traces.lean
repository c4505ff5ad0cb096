import JsonService.Proofs.Route.Reference
import Mathlib.Data.List.Forall2

/-!
# What failed attempts leave behind

An attempt to register a route that fails may still have changed the tree of its method: it has counted the nodes that
it passed, which may now stand in another order, and if it failed on the way it may have added nodes. The first is of
no consequence for later attempts. The second is: a node that was added in vain can be in the way of a route that is in
nobody else's.

**Trees alike.** `t.Like t'` says that the two have the same labels and leaves at the same nodes, whatever the leaves
hold, however often the nodes were passed and in whatever order they stand.

**Results.**
* `Tree.insert_like`: trees alike take further routes alike, and one that is refused for a conflict leaves a tree that
  is like the one before.
* `refusals_leave_no_trace`: so attempts that are refused for a conflict, or before they get to the tree, change
  nothing for later ones; in particular a conflict is always one with a route that was registered.
* `vain_attempt_in_the_way`: a catch-all before the end of a route is found only after nodes were added for what comes
  before it, and they refuse another route although none is registered.
-/
namespace JsonService.Route

variable {α β : Type}

/-! ## Trees alike -/

/-- Nodes for any text that are alike, as far as `R` says so of the trees of what may follow. -/
inductive Wild.LikeBy (R : Tree α → Tree α → Prop) : Wild α → Wild α → Prop
  | parameter (text : List Cell) {leaf leaf' : Option (Leaf α)} {suffixes suffixes' : List (Tree α)} :
      leaf.isSome = leaf'.isSome → List.Forall₂ R suffixes suffixes' →
      LikeBy R (.parameter text leaf suffixes) (.parameter text leaf' suffixes')
  | rest (text : List Cell) (leaf leaf' : Leaf α) : LikeBy R (.rest text leaf) (.rest text leaf')

/-- Trees that differ only in what their leaves hold, in how often nodes were passed, and in their order. -/
inductive Tree.Like : Tree α → Tree α → Prop
  | node (text : List Cell) {priority priority' : Nat} {leaf leaf' : Option (Leaf α)}
      {branches branches' : List (UInt8 × Tree α)} {wild wild' : Option (Wild α)} :
      0 < priority → 0 < priority' → leaf.isSome = leaf'.isSome →
      (∀ key, Option.Rel Tree.Like (branches.lookup key) (branches'.lookup key)) →
      Option.Rel (Wild.LikeBy Tree.Like) wild wild' →
      Tree.Like (.node text priority leaf branches wild) (.node text priority' leaf' branches' wild')

theorem Tree.Like.label_eq {t t' : Tree α} (h : t.Like t') : t.label = t'.label := by
  cases h
  rfl

theorem Tree.Like.passed {t t' : Tree α} (h : t.Like t') : 0 < t.priority := by
  cases h
  assumption

theorem Tree.Like.passed' {t t' : Tree α} (h : t.Like t') : 0 < t'.priority := by
  cases h
  assumption

/-- The trees right below a node for any text. -/
def Wild.suffixes : Wild α → List (Tree α)
  | .parameter _ _ suffixes => suffixes
  | .rest _ _ => []

/-- What holds of a node if it holds of the trees right below it. -/
def Inherited (P : Tree α → Prop) : Prop :=
  ∀ text priority leaf branches wild, (∀ b ∈ branches, P b.2) → (∀ w ∈ wild, ∀ t ∈ Wild.suffixes w, P t) →
    P (.node text priority leaf branches wild)

section
variable {P : Tree α → Prop}

mutual

theorem Tree.induct (h : Inherited P) : ∀ t : Tree α, P t
  | .node text priority leaf branches wild =>
    h text priority leaf branches wild (induct_branches h branches) (induct_wild h wild)

theorem induct_branches (h : Inherited P) : ∀ branches : List (UInt8 × Tree α), ∀ b ∈ branches, P b.2
  | [] => nofun
  | (_, t) :: rest => List.forall_mem_cons.mpr ⟨Tree.induct h t, induct_branches h rest⟩

theorem induct_wild (h : Inherited P) : ∀ wild : Option (Wild α), ∀ w ∈ wild, ∀ t ∈ Wild.suffixes w, P t
  | none => nofun
  | some w => fun _ hw => Option.some.inj hw ▸ Wild.induct h w

theorem Wild.induct (h : Inherited P) : ∀ w : Wild α, ∀ t ∈ Wild.suffixes w, P t
  | .parameter _ _ suffixes => induct_suffixes h suffixes
  | .rest _ _ => nofun

theorem induct_suffixes (h : Inherited P) : ∀ suffixes : List (Tree α), ∀ t ∈ suffixes, P t
  | [] => nofun
  | t :: rest => List.forall_mem_cons.mpr ⟨Tree.induct h t, induct_suffixes h rest⟩

end

end

/-! ## Outcomes alike -/

/-- A fault without the words for the route in its way. -/
def Fault.kind : Fault → Fault
  | .conflict _ => .conflict ""
  | fault => fault

/-- An outcome without the words for the route in its way. -/
def Outcome.kind (o : Outcome) : Outcome := o.mapError Fault.kind

/-- The insertion was refused because another route is in its way. -/
def Outcome.Conflicts (o : Outcome) : Prop := ∃ other, o = .error (.conflict other)

@[simp] theorem Outcome.not_conflicts_ok : ¬Outcome.Conflicts (.ok ()) := by
  rintro ⟨words, h⟩
  cases h

@[simp] theorem Outcome.conflicts_error (fault : Fault) :
    Outcome.Conflicts (.error fault) ↔ ∃ words, fault = .conflict words := by
  simp only [Outcome.Conflicts, Except.error.injEq]

theorem Outcome.conflicts_iff {o : Outcome} : Outcome.Conflicts o ↔ Outcome.kind o = .error (.conflict "") := by
  constructor
  · rintro ⟨other, rfl⟩
    rfl
  · intro kind
    rcases o with fault | u
    · cases fault with
      | conflict other => exact ⟨other, rfl⟩
      | parameter | segment | catchAll | tooMany => cases kind
    · cases kind

/-- Two insertions of a route into something alike come to the same. If they succeed, what they make of it is alike;
if there is a conflict, the first one leaves it like it was. -/
structure AlikeBy (R : β → β → Prop) (unchanged : β) (r r' : Outcome × β) : Prop where
  kind : Outcome.kind r.1 = Outcome.kind r'.1
  grown : r.1 = .ok () → R r.2 r'.2
  kept : Outcome.Conflicts r.1 → R r.2 unchanged

section
variable {R : β → β → Prop} {unchanged : β}

theorem AlikeBy.conflicts {words words' : String} {b b' : β} (kept : R b unchanged) :
    AlikeBy R unchanged (.error (.conflict words), b) (.error (.conflict words'), b') :=
  ⟨rfl, nofun, fun _ => kept⟩

theorem AlikeBy.same {o : Outcome} {b b' : β} (none : ¬Outcome.Conflicts o) (grown : o = .ok () → R b b') :
    AlikeBy R unchanged (o, b) (o, b') :=
  ⟨rfl, grown, fun conflicts => absurd conflicts none⟩

theorem AlikeBy.ok {b b' : β} (grown : R b b') : AlikeBy R unchanged (.ok (), b) (.ok (), b') :=
  .same nofun fun _ => grown

end

/-! ## New nodes -/

theorem parameterEnd_fault {last : UInt8} {cs : List Cell} {e : Fault} (h : parameterEnd last cs = .error e) :
    e = .parameter := by
  induction cs generalizing last with
  | nil => exact (Except.error.inj h).symm
  | cons c rest ih =>
    simp only [parameterEnd] at h
    split at h
    · split at h
      · exact (Except.error.inj h).symm
      · cases h
    split at h
    · exact (Except.error.inj h).symm
    · cases hend : parameterEnd c.byte rest with
      | ok n => rw [hend] at h; cases h
      | error e' =>
        rw [hend] at h
        obtain rfl := Except.error.inj h
        exact ih hend

theorem findParameter_fault {cs : List Cell} {e : Fault} (h : findParameter cs = .error e) : e = .parameter := by
  induction cs with
  | nil => cases h
  | cons c rest ih =>
    simp only [findParameter] at h
    split at h
    · exact (Except.error.inj h).symm
    split at h
    · cases hlength : parameterLength rest with
      | ok n => rw [hlength] at h; cases h
      | error e' =>
        rw [hlength] at h
        obtain rfl := Except.error.inj h
        cases rest with
        | nil => exact (Except.error.inj hlength).symm
        | cons c' rest =>
          simp only [parameterLength] at hlength
          split at hlength
          · exact (Except.error.inj hlength).symm
          · cases hend : parameterEnd c'.byte rest with
            | ok n => rw [hend] at hlength; cases hlength
            | error e'' =>
              rw [hend] at hlength
              obtain rfl := Except.error.inj hlength
              exact parameterEnd_fault hend
    · cases hrest : findParameter rest with
      | ok found => rw [hrest] at h; cases h
      | error e' =>
        rw [hrest] at h
        obtain rfl := Except.error.inj h
        exact ih hrest

theorem normalizeFrom_fault {fuel start : Nat} {names : Names} {cs : List Cell} {e : Fault}
    (h : normalizeFrom fuel start names cs = .error e) : e = .parameter ∨ e = .tooMany := by
  induction fuel generalizing start names cs with
  | zero => cases h
  | succ fuel ih =>
    simp only [normalizeFrom] at h
    split at h
    · next hfind =>
      obtain rfl := Except.error.inj h
      exact .inl (findParameter_fault hfind)
    · cases h
    · split at h
      · exact ih h
      split at h
      · exact .inr (Except.error.inj h).symm
      · exact ih h

/-- What was grown without a conflict, and is like itself: all of it has been passed. -/
structure Fresh (R : β → β → Prop) (r : Outcome × β) : Prop where
  quiet : ¬Outcome.Conflicts r.1
  self : R r.2 r.2

theorem quiet_findParameter {cs : List Cell} {e : Fault} (h : findParameter cs = .error e) :
    ¬Outcome.Conflicts (.error e) := by
  rintro ⟨words, he⟩
  rw [findParameter_fault h] at he
  cases he

section
variable {priority : Nat} (passed : 0 < priority) (text : List Cell) (leaf : Option (Leaf α))
include passed

theorem Tree.Like.self_end : (Tree.node text priority leaf [] none).Like (.node text priority leaf [] none) :=
  .node _ passed passed rfl (fun _ => .none) .none

theorem Tree.Like.self_branch {key : UInt8} {t : Tree α} (h : t.Like t) :
    (Tree.node text priority leaf [(key, t)] none).Like (.node text priority leaf [(key, t)] none) := by
  refine .node _ passed passed rfl (fun k => ?_) .none
  simp only [List.lookup_cons, List.lookup_nil]
  split
  · exact .some h
  · exact .none

theorem Tree.Like.self_wild {wild : Option (Wild α)} (h : Option.Rel (Wild.LikeBy Tree.Like) wild wild) :
    (Tree.node text priority leaf [] wild).Like (.node text priority leaf [] wild) :=
  .node _ passed passed rfl (fun _ => .none) h

end

theorem fresh_sproutWild {grow : List Cell → List Cell → Outcome × Tree α}
    (h : ∀ suffix cs, Fresh Tree.Like (grow suffix cs)) (leaf : Leaf α) (count : Nat) (cs : List Cell) :
    Fresh (Option.Rel (Wild.LikeBy Tree.Like)) (sproutWild grow leaf count cs) := by
  unfold sproutWild
  split
  · split
    · exact ⟨by simp, .some (.rest _ _ _)⟩
    · exact ⟨by simp, .none⟩
  · simp only
    split
    · exact ⟨by simp, .none⟩
    split
    · exact ⟨by simp, .some (.parameter _ rfl .nil)⟩
    · obtain ⟨quiet, self⟩ := h ((cs.take (segmentLength cs)).drop count) (cs.drop (segmentLength cs))
      exact ⟨quiet, .some (.parameter _ rfl (.cons self .nil))⟩

theorem fresh_sprout (leaf : Leaf α) (fuel : Nat) :
    (∀ priority cs, 0 < priority → Fresh Tree.Like (sprout leaf priority fuel cs)) ∧
      ∀ suffix cs, Fresh Tree.Like (sproutSuffix leaf fuel suffix cs) := by
  induction fuel with
  | zero =>
    refine ⟨fun priority cs passed => ⟨by simp [sprout], .self_end passed _ _⟩, fun suffix cs => ⟨?_, ?_⟩⟩
    · rintro ⟨words, h⟩
      simp only [sproutSuffix] at h
      cases h
    · simp only [sproutSuffix]
      exact .self_end Nat.one_pos _ _
  | succ fuel ih =>
    obtain ⟨ihSprout, ihSuffix⟩ := ih
    constructor
    · intro priority cs passed
      rw [sprout]
      cases hfind : findParameter cs with
      | error e => exact ⟨quiet_findParameter hfind, .self_end passed _ _⟩
      | ok found =>
        cases found with
        | none => exact ⟨by simp, .self_end passed _ _⟩
        | some place =>
          obtain ⟨start, count⟩ := place
          have fresh := fresh_sproutWild ihSuffix leaf count (cs.drop start)
          simp only
          split
          · exact ⟨by simp, .self_end passed _ _⟩
          · next outcome wild _ hwild =>
            rw [hwild] at fresh
            exact ⟨fresh.quiet, .self_wild passed _ _ fresh.self⟩
    · intro suffix cs
      cases cs with
      | nil =>
        simp only [sproutSuffix]
        exact ⟨by simp, .self_end Nat.one_pos _ _⟩
      | cons c rest =>
        rw [sproutSuffix]
        split
        · cases hfind : findParameter (c :: rest) with
          | error e => exact ⟨quiet_findParameter hfind, .self_end Nat.one_pos _ _⟩
          | ok found =>
            cases found with
            | none => exact ⟨by simp, .self_end Nat.one_pos _ _⟩
            | some place =>
              have fresh := fresh_sproutWild ihSuffix leaf place.2 (c :: rest)
              exact ⟨fresh.quiet, .self_wild Nat.one_pos _ _ fresh.self⟩
        · have fresh := ihSprout 1 (c :: rest) Nat.one_pos
          exact ⟨fresh.quiet, .self_branch Nat.one_pos _ _ fresh.self⟩

theorem fresh_growWild (leaf : Leaf α) (cs : List Cell) :
    Fresh (Option.Rel (Wild.LikeBy Tree.Like)) (growWild leaf cs) := by
  unfold growWild
  split
  · exact fresh_sproutWild (fresh_sprout leaf _).2 leaf _ cs
  · exact ⟨by simp, .none⟩
  · next hfind => exact ⟨quiet_findParameter hfind, .none⟩

/-- It makes no difference how often a new node counts as passed. -/
theorem sprout_passed (leaf : Leaf α) {priority priority' : Nat} (passed : 0 < priority) (passed' : 0 < priority')
    (fuel : Nat) (cs : List Cell) (unchanged : Tree α) :
    AlikeBy Tree.Like unchanged (sprout leaf priority fuel cs) (sprout leaf priority' fuel cs) := by
  have fresh := (fresh_sprout leaf fuel).1 priority cs passed
  obtain ⟨o, text, value, branches, wild, h, h'⟩ : ∃ o text value branches wild,
      sprout leaf priority fuel cs = (o, .node text priority value branches wild) ∧
        sprout leaf priority' fuel cs = (o, .node text priority' value branches wild) := by
    cases fuel with
    | zero => exact ⟨_, _, _, _, _, rfl, rfl⟩
    | succ fuel =>
      simp only [sprout]
      cases findParameter cs with
      | error e => exact ⟨_, _, _, _, _, rfl, rfl⟩
      | ok found =>
        cases found with
        | none => exact ⟨_, _, _, _, _, rfl, rfl⟩
        | some place =>
          simp only
          split <;> exact ⟨_, _, _, _, _, rfl, rfl⟩
  rw [h] at fresh
  rw [h, h']
  refine .same fresh.quiet fun _ => ?_
  cases fresh.self with
  | node _ _ _ value branches wild => exact .node _ passed passed' value branches wild

/-! ## Branches -/

theorem mem_of_lookup {key : UInt8} {t : Tree α} {branches : List (UInt8 × Tree α)}
    (h : branches.lookup key = some t) : (key, t) ∈ branches := by
  obtain ⟨before, after, rfl, -⟩ := List.lookup_eq_some_iff.mp h
  exact List.mem_append_right _ List.mem_cons_self

section
variable {key : UInt8} {before rest : List (UInt8 × Tree α)}

theorem lookup_between {l : List (UInt8 × Tree α)} (first : l.lookup key = none) (t : Tree α)
    (l' : List (UInt8 × Tree α)) (k : UInt8) :
    (l ++ (key, t) :: l').lookup k = if k = key then some t else (l ++ l').lookup k := by
  by_cases hk : k = key
  · subst hk
    simp [List.lookup_append, first]
  · simp [List.lookup_append, List.lookup_cons, hk, beq_eq_false_iff_ne.mpr hk]

theorem lookup_promote (first : before.lookup key = none) (t t' : Tree α) (k : UInt8) :
    (promote before (key, t') rest).lookup k =
      if k = key then some t' else (before ++ (key, t) :: rest).lookup k := by
  have split := take_append_idle (fun c : UInt8 × Tree α => decide (c.2.priority < t'.priority)) before
  simp only [promote, List.append_assoc, List.cons_append]
  rw [← split, List.lookup_append, Option.or_eq_none_iff] at first
  rw [lookup_between first.1, lookup_between (by rw [← split, List.lookup_append, first.1, first.2]; rfl),
    ← List.append_assoc, split]
  split <;> rfl

theorem lookup_addBranch {branches : List (UInt8 × Tree α)} (first : branches.lookup key = none) (t : Tree α)
    (k : UInt8) : (addBranch key t branches).lookup k = if k = key then some t else branches.lookup k := by
  have split := take_append_idle (fun c : UInt8 × Tree α => decide (c.2.priority < 1)) branches
  simp only [addBranch]
  rw [← split, List.lookup_append, Option.or_eq_none_iff] at first
  rw [lookup_between first.1, split]

end

section
variable (route : List Cell) (leaf : Leaf α) (c : Cell) (cs : List Cell) (branches : List (UInt8 × Tree α))

theorem insertBranch_unknown (before : List (UInt8 × Tree α)) (unknown : branches.lookup c.byte = none) :
    insertBranch route leaf (c :: cs) before branches = none := by
  induction branches generalizing before with
  | nil => rfl
  | cons b rest ih =>
    obtain ⟨key, t⟩ := b
    simp only [List.lookup_cons] at unknown
    split at unknown
    · cases unknown
    · next missed =>
      have hkey : key ≠ c.byte := Ne.symm (beq_eq_false_iff_ne.mp missed)
      simp only [insertBranch, List.head?_cons, Option.map_some, Option.some.injEq, hkey, if_false]
      exact ih _ unknown

/-- An insertion goes below the branch that is found for the first cell, and the others stay. -/
theorem insertBranch_known (before : List (UInt8 × Tree α)) (first : before.lookup c.byte = none) {t : Tree α}
    (known : branches.lookup c.byte = some t) : ∃ grown, insertBranch route leaf (c :: cs) before branches =
        some ((t.insert route leaf (c :: cs)).1, grown) ∧
      ∀ k, grown.lookup k =
        if k = c.byte then some (t.insert route leaf (c :: cs)).2 else (before ++ branches).lookup k := by
  induction branches generalizing before with
  | nil => cases known
  | cons b rest ih =>
    obtain ⟨key, s⟩ := b
    simp only [List.lookup_cons] at known
    split at known
    · next hit =>
      obtain rfl := Option.some.inj known
      obtain rfl : c.byte = key := eq_of_beq hit
      refine ⟨promote before (c.byte, (s.insert route leaf (c :: cs)).2) rest, ?_, lookup_promote first s _⟩
      simp only [insertBranch, List.head?_cons, Option.map_some, if_true]
    · next missed =>
      have hkey : key ≠ c.byte := Ne.symm (beq_eq_false_iff_ne.mp missed)
      have next := ih (before ++ [(key, s)]) (by simp [List.lookup_append, first, List.lookup_cons, missed]) known
      simpa only [insertBranch, List.head?_cons, Option.map_some, Option.some.injEq, hkey, if_false, List.append_assoc,
        List.singleton_append] using next

theorem branch_missed (missed : ¬(c.leads = true ∧ (branches.lookup c.byte).isSome = true)) :
    (if c.leads = true then insertBranch route leaf (c :: cs) [] branches else none) = none := by
  split
  · next leads =>
    exact insertBranch_unknown route leaf c cs branches [] (Option.not_isSome_iff_eq_none.mp fun h => missed ⟨leads, h⟩)
  · rfl

end

/-! ## Insertions into trees alike -/

section
variable (route : List Cell) (leaf : Leaf α)

/-- Insertions into trees that are like this one come to the same. -/
def Tree.InsertsAlike (t : Tree α) : Prop :=
  ∀ t' cs, t.Like t' → AlikeBy Tree.Like t' (t.insert route leaf cs) (t'.insert route leaf cs)

theorem insertSuffix_like {t t' : Tree α} (ht : t.Like t') {suffixes suffixes' : List (Tree α)}
    (h : List.Forall₂ Tree.Like suffixes suffixes') :
    List.Forall₂ Tree.Like (insertSuffix t suffixes) (insertSuffix t' suffixes') := by
  simp only [insertSuffix]
  have longer : List.Forall₂ Tree.Like (suffixes.takeWhile fun s => t.label.length ≤ s.label.length)
        (suffixes'.takeWhile fun s => t'.label.length ≤ s.label.length) ∧
      (suffixes.takeWhile fun s => t.label.length ≤ s.label.length).length =
        (suffixes'.takeWhile fun s => t'.label.length ≤ s.label.length).length := by
    induction h with
    | nil => exact ⟨.nil, rfl⟩
    | cons hs _ ih =>
      simp only [List.takeWhile_cons, ht.label_eq, hs.label_eq] at ih ⊢
      split
      · exact ⟨.cons hs ih.1, by simp [ih.2]⟩
      · exact ⟨.nil, rfl⟩
  refine List.rel_append longer.1 (.cons ht ?_)
  rw [longer.2]
  exact List.forall₂_drop _ h

theorem insertSuffixed_like (cs suffix : List Cell) {suffixes suffixes' : List (Tree α)}
    (h : List.Forall₂ Tree.Like suffixes suffixes') (ih : ∀ t ∈ suffixes, t.InsertsAlike route leaf) :
    Option.Rel (AlikeBy (List.Forall₂ Tree.Like) suffixes') (insertSuffixed route leaf cs suffix suffixes)
      (insertSuffixed route leaf cs suffix suffixes') := by
  induction h with
  | nil => exact .none
  | @cons t t' rest rest' ht hrest next =>
    obtain ⟨hfirst, hothers⟩ := List.forall_mem_cons.mp ih
    simp only [insertSuffixed, ht.label_eq]
    split
    · obtain ⟨kind, grown, kept⟩ := hfirst t' cs ht
      exact .some ⟨kind, fun ok => .cons (grown ok) hrest, fun conflicts => .cons (kept conflicts) hrest⟩
    · have others := next hothers
      generalize insertSuffixed route leaf cs suffix rest = x,
        insertSuffixed route leaf cs suffix rest' = x' at others
      cases others with
      | none => exact .none
      | some alike =>
        exact .some ⟨alike.kind, fun ok => .cons ht (alike.grown ok), fun conflicts => .cons ht (alike.kept conflicts)⟩

theorem conflict_words (left label : List Cell) (names : Names) (below : List Cell × Names) :
    ∃ words, conflict route left label names below = .conflict words := by
  unfold conflict
  split <;> exact ⟨_, rfl⟩

theorem alikeBy_conflict {R : β → β → Prop} {unchanged b b' : β} (kept : R b unchanged) (left label label' : List Cell)
    (names names' : Names) (below below' : List Cell × Names) :
    AlikeBy R unchanged (.error (conflict route left label names below), b)
      (.error (conflict route left label' names' below'), b') := by
  obtain ⟨words, hwords⟩ := conflict_words route left label names below
  obtain ⟨words', hwords'⟩ := conflict_words route left label' names' below'
  rw [hwords, hwords']
  exact .conflicts kept

theorem leaf_cases {value value' : Option (Leaf α)} (same : value.isSome = value'.isSome) :
    (∃ old old', value = some old ∧ value' = some old') ∨ value = none ∧ value' = none := by
  cases value <;> cases value' <;> simp_all

theorem Wild.insert_like (cs : List Cell) {w w' : Wild α} (h : w.LikeBy Tree.Like w')
    (ih : ∀ t ∈ w.suffixes, t.InsertsAlike route leaf) :
    AlikeBy (Wild.LikeBy Tree.Like) w' (w.insert route leaf cs) (w'.insert route leaf cs) := by
  cases h with
  | rest text value value' =>
    simp only [Wild.insert]
    exact alikeBy_conflict route (.rest text value value') _ _ _ _ _ _ _
  | @parameter text value value' suffixes suffixes' hvalue hsuffixes =>
    have unchanged : (Wild.parameter text value suffixes).LikeBy Tree.Like (.parameter text value' suffixes') :=
      .parameter text hvalue hsuffixes
    simp only [Wild.insert]
    split
    · exact alikeBy_conflict route unchanged _ _ _ _ _ _ _
    · cases cs.drop text.length with
      | nil =>
        rcases leaf_cases hvalue with ⟨old, old', rfl, rfl⟩ | ⟨rfl, rfl⟩
        · exact .conflicts unchanged
        · exact .ok (.parameter text rfl hsuffixes)
      | cons c rest =>
        simp only
        have below := insertSuffixed_like route leaf (c :: rest) ((c :: rest).take (segmentLength (c :: rest)))
          hsuffixes ih
        generalize insertSuffixed route leaf _ _ suffixes = x, insertSuffixed route leaf _ _ suffixes' = x' at below
        cases below with
        | some alike =>
          exact ⟨alike.kind, fun ok => .parameter text hvalue (alike.grown ok),
            fun conflicts => .parameter text hvalue (alike.kept conflicts)⟩
        | none =>
          simp only
          split
          · exact .same (by simp) (by simp)
          · obtain ⟨quiet, self⟩ := (fresh_sprout leaf (rest.length + 2)).2
              ((c :: rest).take (segmentLength (c :: rest))) ((c :: rest).drop (segmentLength (c :: rest)))
            exact .same quiet fun _ => .parameter text hvalue (insertSuffix_like self hsuffixes)

theorem insertWild_like (cs : List Cell) {wild wild' : Option (Wild α)}
    (h : Option.Rel (Wild.LikeBy Tree.Like) wild wild')
    (ih : ∀ w ∈ wild, ∀ t ∈ Wild.suffixes w, t.InsertsAlike route leaf) :
    AlikeBy (Option.Rel (Wild.LikeBy Tree.Like)) wild' (insertWild route leaf cs wild)
      (insertWild route leaf cs wild') := by
  cases h with
  | none =>
    have fresh := fresh_growWild leaf cs
    simp only [insertWild]
    exact .same fresh.quiet fun _ => fresh.self
  | some hw =>
    obtain ⟨kind, grown, kept⟩ := Wild.insert_like route leaf cs hw (ih _ rfl)
    exact ⟨kind, fun ok => .some (grown ok), fun conflicts => .some (kept conflicts)⟩

/-- Lists of branches in which every key leads to trees alike. -/
def BranchesLike (branches branches' : List (UInt8 × Tree α)) : Prop :=
  ∀ key, Option.Rel Tree.Like (branches.lookup key) (branches'.lookup key)

omit route leaf in
theorem branchesLike_singleton (key : UInt8) {t t' : Tree α} (h : t.Like t') :
    BranchesLike [(key, t)] [(key, t')] := by
  intro k
  simp only [List.lookup_cons, List.lookup_nil]
  split
  · exact .some h
  · exact .none

omit route leaf in
theorem addBranch_passed (key key' : UInt8) (t : Tree α) {s : Tree α} (passed : 0 < s.priority) :
    addBranch key t [(key', s)] = [(key', s), (key, t)] := by
  simp [addBranch, Nat.ne_of_gt passed]

omit route leaf in
/-- A branch is put after one that has been passed, so the one that was there is found if both have one key. -/
theorem branchesLike_addBranch (key key' : UInt8) {t s s' : Tree α} (self : t.Like t) (h : s.Like s') :
    BranchesLike (addBranch key t [(key', s)]) (addBranch key t [(key', s')]) := by
  rw [addBranch_passed _ _ _ h.passed, addBranch_passed _ _ _ h.passed']
  intro k
  simp only [List.lookup_cons, List.lookup_nil]
  split
  · exact .some h
  · split
    · exact .some self
    · exact .none

omit route leaf in
/-- A branch that is changed, or added, among branches alike. -/
theorem BranchesLike.changed {branches branches' changed changed' : List (UInt8 × Tree α)}
    (h : BranchesLike branches branches') {key : UInt8} {t t' : Tree α} (like : t.Like t')
    (hchanged : ∀ k, changed.lookup k = if k = key then some t else branches.lookup k)
    (hchanged' : ∀ k, changed'.lookup k = if k = key then some t' else branches'.lookup k) :
    BranchesLike changed changed' := by
  intro k
  rw [hchanged, hchanged']
  split
  · exact .some like
  · exact h k

omit route in
theorem leads_of_sprouted {c : Cell} {rest : List Cell} {priority fuel : Nat} (hopens : ¬c.opens = true)
    (ok : (sprout leaf priority (fuel + 1) (c :: rest)).1 = .ok ()) : c.leads = true := by
  cases hcloses : c.closes with
  | true =>
    simp only [sprout, findParameter, hcloses, if_true] at ok
    cases ok
  | false =>
    obtain ⟨byte, escaped⟩ := c
    cases escaped with
    | true => rfl
    | false => simp_all [Cell.opens, Cell.closes, Cell.leads]

/-- Trees alike take a route alike, and one that is refused for a conflict leaves the tree like it was. -/
theorem Tree.insert_like : ∀ t : Tree α, t.InsertsAlike route leaf := by
  refine Tree.induct ?_
  intro text priority value branches wild ihBranches ihWild t' cs h
  cases h with
  | @node _ _ priority' _ value' _ branches' _ wild' passed passed' hvalue hbranches hwild =>
    have unchanged : ∀ p, 0 < p → (Tree.node text p value branches wild).Like
        (.node text priority' value' branches' wild') :=
      fun _ positive => .node text positive passed' hvalue hbranches hwild
    simp only [Tree.insert]
    split
    · have lower : (Tree.node (text.drop (commonLength cs text)) priority value branches wild).Like
          (.node (text.drop (commonLength cs text)) priority' value' branches' wild') :=
        .node _ passed passed' hvalue hbranches hwild
      cases cs.drop (commonLength cs text) with
      | nil =>
        exact .ok (.node _ (Nat.succ_pos _) (Nat.succ_pos _) rfl (branchesLike_singleton _ lower) .none)
      | cons c rest =>
        simp only
        split
        · obtain ⟨quiet, self⟩ := fresh_growWild leaf (c :: rest)
          exact .same quiet fun _ =>
            .node _ (Nat.succ_pos _) (Nat.succ_pos _) rfl (branchesLike_singleton _ lower) self
        · obtain ⟨quiet, self⟩ := (fresh_sprout leaf (rest.length + 2)).1 1 (c :: rest) Nat.one_pos
          exact .same quiet fun _ => .node _ (Nat.succ_pos _) (Nat.succ_pos _) rfl
            (branchesLike_addBranch _ _ self lower) .none
    · cases cs.drop (commonLength cs text) with
      | nil =>
        rcases leaf_cases hvalue with ⟨old, old', rfl, rfl⟩ | ⟨rfl, rfl⟩
        · exact .conflicts (unchanged _ (Nat.succ_pos _))
        · exact .ok (.node text (Nat.succ_pos _) (Nat.succ_pos _) rfl hbranches hwild)
      | cons c rest =>
        have found := hbranches c.byte
        have same : (branches.lookup c.byte).isSome = (branches'.lookup c.byte).isSome := by
          generalize branches.lookup c.byte = x, branches'.lookup c.byte = x' at found
          cases found <;> rfl
        by_cases leads : c.leads = true ∧ (branches.lookup c.byte).isSome = true
        · -- below a branch that both trees have
          obtain ⟨s, hs⟩ := Option.isSome_iff_exists.mp leads.2
          obtain ⟨s', hs'⟩ := Option.isSome_iff_exists.mp (same ▸ leads.2)
          rw [hs, hs'] at found
          obtain ⟨grown, hgrown, hlookup⟩ := insertBranch_known route leaf c rest branches [] rfl hs
          obtain ⟨grown', hgrown', hlookup'⟩ := insertBranch_known route leaf c rest branches' [] rfl hs'
          simp only [leads.1, if_true, hgrown, hgrown']
          cases found with
          | some like =>
            obtain ⟨kind, ok, kept⟩ := ihBranches (c.byte, s) (mem_of_lookup hs) s' (c :: rest) like
            refine ⟨kind, fun h => ?_, fun h => ?_⟩
            · exact .node text (Nat.succ_pos _) (Nat.succ_pos _) hvalue
                (BranchesLike.changed hbranches (ok h) hlookup hlookup') hwild
            · refine .node text (Nat.succ_pos _) passed' hvalue
                (BranchesLike.changed hbranches (kept h) hlookup fun k => ?_) hwild
              split
              · next hk => rw [hk, hs']
              · rfl
        · have missed := branch_missed route leaf c rest branches leads
          have missed' := branch_missed route leaf c rest branches' (same ▸ leads)
          simp only [missed, missed']
          split
          · obtain ⟨kind, grown, kept⟩ := insertWild_like route leaf (c :: rest) hwild ihWild
            exact ⟨kind, fun ok => .node text (Nat.succ_pos _) (Nat.succ_pos _) hvalue hbranches (grown ok),
              fun conflicts => .node text (Nat.succ_pos _) passed' hvalue hbranches (kept conflicts)⟩
          · next hopens =>
            obtain ⟨quiet, self⟩ := (fresh_sprout leaf (rest.length + 2)).1 1 (c :: rest) Nat.one_pos
            refine .same quiet fun ok => ?_
            have unknown : branches.lookup c.byte = none :=
              Option.not_isSome_iff_eq_none.mp fun h => leads ⟨leads_of_sprouted leaf hopens ok, h⟩
            have unknown' : branches'.lookup c.byte = none :=
              Option.not_isSome_iff_eq_none.mp (same ▸ Option.not_isSome_iff_eq_none.mpr unknown)
            exact .node text (Nat.succ_pos _) (Nat.succ_pos _) hvalue
              (BranchesLike.changed hbranches self (lookup_addBranch unknown _) (lookup_addBranch unknown' _)) hwild

end

/-! ## Whole trees -/

/-- Two trees that are alike, or to which nothing was ever added. -/
def RootsLike (t t' : Tree α) : Prop := t.Like t' ∨ t = .empty ∧ t' = .empty

/-- A tree that stands for no text at all: the first route takes its place. -/
def Tree.IsBlank : Tree α → Prop
  | .node text _ _ branches wild => text = [] ∧ branches = [] ∧ wild = none

/-- A route that gets to the tree takes the place of a blank one, and is inserted into every other. -/
theorem Tree.add_eq {path : List UInt8} {value : α} {route : List Cell} {names : Names}
    (normal : normalize (cells path) = .ok (route, names)) (t : Tree α) :
    (t.IsBlank → t.add path value = sprout ⟨value, names⟩ (t.priority + 1) (route.length + 1) route) ∧
      (¬t.IsBlank → t.add path value = t.insert route ⟨value, names⟩ route) := by
  obtain ⟨text, priority, leaf, branches, wild⟩ := t
  simp only [Tree.add, normal, Tree.IsBlank]
  cases text <;> cases branches <;> cases wild <;> simp [Tree.priority]

theorem branches_eq_nil {branches : List (UInt8 × Tree α)} (h : BranchesLike [] branches) : branches = [] := by
  cases branches with
  | nil => rfl
  | cons b rest =>
    have found := h b.1
    rw [List.lookup_cons_self] at found
    cases found

theorem Tree.Like.isBlank {t t' : Tree α} (h : t.Like t') (blank : t.IsBlank) : t'.IsBlank := by
  cases h with
  | node text _ _ _ hbranches hwild =>
    obtain ⟨rfl, rfl, rfl⟩ := blank
    cases hwild
    exact ⟨rfl, branches_eq_nil hbranches, rfl⟩

theorem Tree.Like.isBlank' {t t' : Tree α} (h : t.Like t') (blank : t'.IsBlank) : t.IsBlank := by
  cases h with
  | node text _ _ _ hbranches hwild =>
    obtain ⟨rfl, rfl, rfl⟩ := blank
    cases hwild
    refine ⟨rfl, branches_eq_nil fun key => ?_, rfl⟩
    have found := hbranches key
    simp only [List.lookup_nil] at found ⊢
    cases hk : List.lookup key _ <;> rw [hk] at found <;> cases found
    exact .none

theorem Tree.add_like {t t' : Tree α} (h : RootsLike t t') {path : List UInt8} (value : α) {route : List Cell}
    {names : Names} (normal : normalize (cells path) = .ok (route, names)) :
    AlikeBy RootsLike t' (t.add path value) (t'.add path value) := by
  have loosen : ∀ {r r' : Outcome × Tree α}, AlikeBy Tree.Like t' r r' → AlikeBy RootsLike t' r r' :=
    fun alike => ⟨alike.kind, fun ok => .inl (alike.grown ok), fun conflicts => .inl (alike.kept conflicts)⟩
  refine loosen ?_
  rcases h with like | ⟨rfl, rfl⟩
  · by_cases blank : t.IsBlank
    · rw [(Tree.add_eq normal t).1 blank, (Tree.add_eq normal t').1 (like.isBlank blank)]
      exact sprout_passed _ (Nat.succ_pos _) (Nat.succ_pos _) _ _ _
    · rw [(Tree.add_eq normal t).2 blank, (Tree.add_eq normal t').2 fun blank' => blank (like.isBlank' blank')]
      exact Tree.insert_like _ _ t t' _ like
  · rw [(Tree.add_eq normal .empty).1 ⟨rfl, rfl, rfl⟩]
    exact sprout_passed _ (Nat.succ_pos _) (Nat.succ_pos _) _ _ _

/-! ## Attempts -/

namespace Attempt

/-- The pattern of the route cannot be normalized: it gets nowhere near the tree. -/
def Improper (a : Attempt α) : Prop :=
  ∃ fault, normalize (cells (Table.patternBytes (versioned a.version a.path))) = .error fault

/-- The attempt is refused without adding anything: for a conflict, or because it is improper. -/
def Refused (a : Attempt α) (o : Outcome) : Prop := o.Conflicts ∨ a.Improper

end Attempt

namespace Table

/-- Tables whose trees are alike, method by method. -/
def Like (t t' : Table α) : Prop := ∀ m, RootsLike (t.trees m) (t'.trees m)

/-- Every attempt succeeds or is refused without adding anything. -/
def Clean (t : Table α) : List (Attempt α) → Prop
  | [] => True
  | a :: as => ((t.attempt a).1 = .ok () ∨ a.Refused (t.attempt a).1) ∧ (t.attempt a).2.Clean as

theorem after_cons (t : Table α) (a : Attempt α) (as : List (Attempt α)) :
    t.after (a :: as) = (t.attempt a).2.after as := by
  rw [after, List.foldl_cons, after]

theorem registered_ok {t : Table α} {a : Attempt α} (ok : (t.attempt a).1 = .ok ()) (as : List (Attempt α)) :
    t.registered (a :: as) = a :: (t.attempt a).2.registered as := by
  rw [registered, if_pos (isOk_iff.mpr ok), List.singleton_append]

theorem registered_error {t : Table α} {a : Attempt α} (failed : (t.attempt a).1 ≠ .ok ()) (as : List (Attempt α)) :
    t.registered (a :: as) = (t.attempt a).2.registered as := by
  rw [registered, if_neg fun ok => failed (isOk_iff.mp ok), List.nil_append]

section
variable {t t' : Table α} (h : t.Like t')
include h

/-- Tables alike take an attempt alike, and one that is refused leaves the table like it was. -/
theorem attempt_like (a : Attempt α) :
    Outcome.kind (t.attempt a).1 = Outcome.kind (t'.attempt a).1 ∧
      ((t.attempt a).1 = .ok () → (t.attempt a).2.Like (t'.attempt a).2) ∧
      (a.Refused (t.attempt a).1 → (t.attempt a).2.Like t') := by
  rw [attempt_outcome, attempt_outcome]
  cases normal : normalize (cells (patternBytes (versioned a.version a.path))) with
  | error fault =>
    -- the attempt gets nowhere near the trees
    have untouched : ∀ s : Tree α,
        s.add (patternBytes (versioned a.version a.path)) a.value = (.error fault, s) := by
      intro s
      simp only [Tree.add, normal]
    rw [untouched, untouched]
    refine ⟨rfl, by simp, fun _ m => ?_⟩
    rw [attempt_trees, untouched]
    split
    · next hm => exact hm ▸ h m
    · exact h m
  | ok found =>
    obtain ⟨kind, grown, kept⟩ := Tree.add_like (h a.method) a.value normal
    refine ⟨kind, fun ok m => ?_, fun refused m => ?_⟩
    · rw [attempt_trees, attempt_trees]
      split
      · exact grown ok
      · exact h m
    · rw [attempt_trees]
      split
      · next hm =>
        subst hm
        rcases refused with conflicts | ⟨fault, improper⟩
        · exact kept conflicts
        · rw [normal] at improper
          cases improper
      · exact h m

/-- After attempts of which all succeed or are refused without adding anything, a table is like one in which only
those were made that succeeded, and there these succeed too. -/
theorem after_like {as : List (Attempt α)} (clean : t.Clean as) :
    (t.after as).Like (t'.after (t.registered as)) ∧ t'.registered (t.registered as) = t.registered as := by
  induction as generalizing t t' with
  | nil => exact ⟨h, rfl⟩
  | cons a as ih =>
    obtain ⟨kind, grown, kept⟩ := attempt_like h a
    obtain ⟨first, rest⟩ := clean
    by_cases ok : (t.attempt a).1 = .ok ()
    · have ok' : (t'.attempt a).1 = .ok () := by
        rw [ok] at kind
        cases hresult : (t'.attempt a).1 with
        | ok u => rfl
        | error fault => rw [hresult] at kind; cases kind
      obtain ⟨like, same⟩ := ih (grown ok) rest
      rw [registered_ok ok, after_cons, after_cons, registered_ok ok', same]
      exact ⟨like, rfl⟩
    · rw [registered_error ok, after_cons]
      exact ih (kept (first.resolve_left ok)) rest

end

theorem like_empty : ({} : Table α).Like {} := fun _ => .inr ⟨rfl, rfl⟩

/-- A tree is empty until there is an attempt for its method. -/
theorem trees_after {t : Table α} {as : List (Attempt α)} {m : Method} (others : ∀ a ∈ as, a.method ≠ m) :
    (t.after as).trees m = t.trees m := by
  induction as generalizing t with
  | nil => rfl
  | cons a as ih =>
    obtain ⟨first, rest⟩ := List.forall_mem_cons.mp others
    rw [after_cons, ih rest, attempt_trees, if_neg first.symm]

theorem conflicts_nonempty {t : Table α} {a : Attempt α} (conflicts : Outcome.Conflicts (t.attempt a).1) :
    t.trees a.method ≠ .empty := by
  intro empty
  rw [attempt_outcome, empty] at conflicts
  cases normal : normalize (cells (patternBytes (versioned a.version a.path))) with
  | error fault =>
    obtain ⟨other, words⟩ := conflicts
    simp only [Tree.add, normal] at words
    obtain rfl := Except.error.inj words
    rcases normalizeFrom_fault normal with h | h <;> cases h
  | ok found =>
    rw [(Tree.add_eq normal .empty).1 ⟨rfl, rfl, rfl⟩] at conflicts
    exact ((fresh_sprout _ _).1 _ _ (Nat.succ_pos _)).quiet conflicts

end Table

/-- **Refused attempts leave no trace.** Among any attempts, of any methods, versions and paths, of which those that
fail are refused for a conflict or before they get to the tree, every attempt comes to the same as among those alone
that succeed, which all succeed among themselves; and a conflict is always one with a route of its method that was
registered. -/
theorem refusals_leave_no_trace (as : List (Attempt α)) (clean : Table.Clean {} as) (a : Attempt α) :
    Outcome.kind ((Table.after {} as).attempt a).1 =
        Outcome.kind ((Table.after {} (Table.registered {} as)).attempt a).1 ∧
      Table.registered {} (Table.registered {} as) = Table.registered {} as ∧
      (Outcome.Conflicts ((Table.after {} as).attempt a).1 →
        ∃ r ∈ Table.registered {} as, r.method = a.method) := by
  obtain ⟨like, same⟩ := Table.after_like Table.like_empty clean
  have kind := (Table.attempt_like like a).1
  refine ⟨kind, same, fun conflicts => Classical.byContradiction fun none => ?_⟩
  have others : ∀ r ∈ Table.registered {} as, r.method ≠ a.method := fun r hr hm => none ⟨r, hr, hm⟩
  rw [Outcome.conflicts_iff, kind, ← Outcome.conflicts_iff] at conflicts
  exact Table.conflicts_nonempty conflicts (Table.trees_after others)

/-- Four attempts: the second is refused for a conflict with the first, and the third has a parameter without a name. -/
def beerAttempts : List (Attempt Unit) :=
  [⟨.get, "v1", "/beers/:id", ()⟩, ⟨.get, "v1", "/beers/:name", ()⟩, ⟨.get, "v1", "/beers/:", ()⟩,
    ⟨.post, "v1", "/beers", ()⟩]

theorem refusals_leave_no_trace_beers :
    Table.Clean {} beerAttempts ∧ (Table.registered {} beerAttempts).length = 2 ∧
      Outcome.kind ((Table.after {} beerAttempts).attempt (⟨.get, "v1", "/beers/:beer", ()⟩ : Attempt Unit)).1 =
        Outcome.kind ((Table.after {} (Table.registered {} beerAttempts)).attempt
          (⟨.get, "v1", "/beers/:beer", ()⟩ : Attempt Unit)).1 := by
  have clean : Table.Clean {} beerAttempts :=
    ⟨.inl (by decide +kernel), .inr (.inl ⟨"/v1/beers/\x7bid\x7d", by decide +kernel⟩),
      .inr (.inr ⟨.parameter, by decide +kernel⟩), .inl (by decide +kernel), trivial⟩
  have succeed : (Table.registered {} beerAttempts).length = 2 := by decide +kernel
  exact ⟨clean, succeed, (refusals_leave_no_trace beerAttempts clean ⟨.get, "v1", "/beers/:beer", ()⟩).1⟩

def vainAttempt : Attempt Unit := ⟨.get, "", "/:a/*r/x", ()⟩

def innocentAttempt : Attempt Unit := ⟨.get, "", "/*rest", ()⟩

/-- The parameter that comes first in the refused route stays in the tree, and is in the way of another route, which
is registered where there was no such attempt. -/
theorem vain_attempt_in_the_way :
    (Table.attempt {} vainAttempt).1 = .error .catchAll ∧ Table.registered {} [vainAttempt] = [] ∧
      ((Table.after {} [vainAttempt]).attempt innocentAttempt).1 = .error (.conflict "/\x7ba\x7d/") ∧
      ((Table.after {} (Table.registered {} [vainAttempt])).attempt innocentAttempt).1 = .ok () := by
  decide +kernel

end JsonService.Route
