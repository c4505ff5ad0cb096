import JsonService.Proofs.Route.Nodes

/-!
# What a refused route leaves alone

A route that is refused for a conflict has been counted at the nodes that it passed, some of which may stand in another
order now. No search finds anything else for it: what was registered before is reached by the same paths, with the
names that it was registered with.

**Results.**
* `insert_conflict`: an insertion that is refused for a conflict leaves a tree in which everything is found as before.
* `lookup_refused`: so does a refused attempt with a whole table.
-/
namespace JsonService.Route

variable {α : Type}

/-! ## Searches at one node -/

theorem findBranch_eq_lookup (b : UInt8) (path : List UInt8) (branches : List (UInt8 × Tree α)) :
    findBranch (b :: path) branches = (branches.lookup b).bind (Tree.find (b :: path)) := by
  induction branches with
  | nil => rfl
  | cons branch branches ih =>
    obtain ⟨key, t⟩ := branch
    rw [findBranch, List.lookup_cons]
    by_cases same : b = key
    · simp [same]
    · simp [Ne.symm same, beq_eq_false_iff_ne.mpr same, ih]

theorem find_congr (label : List Cell) (priority priority' : Nat) (value : Option (Leaf α))
    {branches branches' : List (UInt8 × Tree α)} {wild wild' : Option (Wild α)}
    (hbranches : ∀ b path, findBranch (b :: path) branches' = findBranch (b :: path) branches)
    (hwild : ∀ path, findWild path wild' = findWild path wild) (path : List UInt8) :
    (Tree.node label priority' value branches' wild').find path =
      (Tree.node label priority value branches wild).find path := by
  simp only [Tree.find, hbranches, hwild]

theorem find_withLabel (label : List Cell) {t : Tree α} (bare : t.label = []) (path : List UInt8) :
    (t.withLabel label).find path = (after? (bytes label) path).bind fun rest => t.find rest := by
  obtain ⟨text, priority, value, branches, wild⟩ := t
  obtain rfl : text = [] := bare
  rw [Tree.withLabel, Tree.find]
  cases after? (bytes label) path with
  | none => rfl
  | some rest =>
    rw [Option.bind_some, Tree.find, show bytes [] = [] from rfl, after?_nil]

theorem findSuffix_congr {t t' : Tree α} (label : t'.label = t.label) (same : ∀ path, t'.find path = t.find path)
    (before after : List (Tree α)) (path : List UInt8) (length : Nat) :
    findSuffix path length (before ++ t' :: after) = findSuffix path length (before ++ t :: after) := by
  induction before with
  | nil => simp only [List.nil_append, findSuffix, label, same]
  | cons s before ih => simp only [List.cons_append, findSuffix, ih]

/-! ## Conflicts -/

/-- What is found in a tree stays as it is when an insertion is refused for a conflict. -/
def Tree.Unmoved (t : Tree α) : Prop :=
  ∀ (route : List Cell) (leaf : Leaf α) (cs : List Cell), Outcome.Conflicts (t.insert route leaf cs).1 →
    (t.insert route leaf cs).2.label = t.label ∧ ∀ path, (t.insert route leaf cs).2.find path = t.find path

theorem wild_unmoved {w : Wild α} (ih : ∀ t ∈ w.suffixes, t.Unmoved) (route : List Cell) (leaf : Leaf α)
    (cs : List Cell) (conflicts : Outcome.Conflicts (w.insert route leaf cs).1) (path : List UInt8) :
    (w.insert route leaf cs).2.find path = w.find path := by
  cases w with
  | rest label value => rfl
  | parameter label value suffixes =>
    have hcases := insert_parameter_cases route leaf label value suffixes cs
    generalize (Wild.parameter label value suffixes).insert route leaf cs = r at hcases conflicts
    cases hcases with
    | conflict words => rfl
    | free same nil none => simp at conflicts
    | segment same hrest ne others holds => simp at conflicts
    | @below rest before after t same hrest ne split first found =>
      subst split
      have mem : t ∈ before ++ t :: after := List.mem_append_right _ List.mem_cons_self
      obtain ⟨hlabel, unmoved⟩ := ih t mem route leaf rest conflicts
      simp only [Wild.find, findSuffix_congr hlabel unmoved]
    | grown => exact absurd conflicts ((fresh_sprout leaf _).2 _ _).quiet

theorem insertWild_unmoved {wild : Option (Wild α)} (ih : ∀ w ∈ wild, ∀ t ∈ Wild.suffixes w, t.Unmoved)
    (route : List Cell) (leaf : Leaf α) (cs : List Cell)
    (conflicts : Outcome.Conflicts (insertWild route leaf cs wild).1) (path : List UInt8) : findWild path (insertWild route leaf cs wild).2 = findWild path wild := by
  cases wild with
  | none => exact absurd conflicts (fresh_growWild leaf cs).quiet
  | some w => exact wild_unmoved (ih w rfl) route leaf cs conflicts path

theorem bare_unmoved {branches : List (UInt8 × Tree α)} {wild : Option (Wild α)}
    (ihBranches : ∀ b ∈ branches, b.2.Unmoved) (ihWild : ∀ w ∈ wild, ∀ t ∈ Wild.suffixes w, t.Unmoved)
    (route : List Cell) (leaf : Leaf α) (priority : Nat) (value : Option (Leaf α)) (cs : List Cell)
    (conflicts : Outcome.Conflicts (Tree.insert route leaf cs (.node [] priority value branches wild)).1)
    (path : List UInt8) : (Tree.insert route leaf cs (.node [] priority value branches wild)).2.find path =
      (Tree.node [] priority value branches wild).find path := by
  have hcases := insert_bare route leaf priority value branches wild cs
  generalize Tree.insert route leaf cs (.node [] priority value branches wild) = r at hcases conflicts
  cases hcases with
  | taken old known => exact find_congr [] _ _ value (fun _ _ => rfl) (fun _ => rfl) path
  | free none => simp at conflicts
  | @branch c cs t branches' leads known lookup members =>
    have unmoved := (ihBranches _ (mem_of_lookup known) route leaf (c :: cs) conflicts).2
    refine find_congr [] _ _ value (fun b path => ?_) (fun _ => rfl) path
    rw [findBranch_eq_lookup, findBranch_eq_lookup, lookup]
    split
    · next same => rw [same, known, Option.bind_some, Option.bind_some, ← same, unmoved]
    · rfl
  | wild opens =>
    exact find_congr [] _ _ value (fun _ _ => rfl) (insertWild_unmoved ihWild route leaf _ conflicts) path
  | grown => exact absurd conflicts ((fresh_sprout leaf _).1 1 _ Nat.one_pos).quiet

theorem insertSplit_quiet (leaf : Leaf α) (priority : Nat) (upper : List Cell) (lower : UInt8 × Tree α)
    (cs : List Cell) : ¬Outcome.Conflicts (insertSplit leaf priority upper lower cs).1 := by
  cases cs with
  | nil => simp [insertSplit]
  | cons c cs =>
    rw [insertSplit]
    split
    · exact (fresh_growWild leaf _).quiet
    · exact ((fresh_sprout leaf _).1 1 _ Nat.one_pos).quiet

/-- **Conflicts move nothing.** An insertion that is refused for a conflict leaves a tree in which every path finds what
it found before. -/
theorem insert_conflict : ∀ t : Tree α, t.Unmoved := by
  refine Tree.induct ?_
  intro label priority value branches wild ihBranches ihWild route leaf cs conflicts
  rcases insert_cases route leaf label priority value branches wild cs with ⟨cs', rfl, inserted⟩ |
    ⟨upper, x, lower, cs', rfl, rfl, -, inserted⟩
  · have bare : (Tree.node [] priority value branches wild).label = [] := rfl
    have bare' := label_insert_bare route leaf cs' priority value branches wild
    rw [inserted] at conflicts ⊢
    have unmoved := bare_unmoved ihBranches ihWild route leaf priority value cs' conflicts
    refine ⟨label_withLabel _ _, fun path => ?_⟩
    have whole : Tree.node label priority value branches wild =
        (Tree.node [] priority value branches wild).withLabel label := rfl
    rw [whole, find_withLabel label bare', find_withLabel label bare]
    simp only [unmoved]
  · rw [inserted] at conflicts
    exact absurd conflicts (insertSplit_quiet leaf priority upper _ cs')

/-! ## Tables -/

theorem add_conflict {t : Tree α} {path : List UInt8} (value : α)
    (conflicts : Outcome.Conflicts (t.add path value).1) (request : List UInt8) :
    (t.add path value).2.find request = t.find request := by
  cases normal : normalize (cells path) with
  | error fault => simp only [Tree.add, normal]
  | ok found =>
    obtain ⟨route, names⟩ := found
    by_cases blank : t.IsBlank
    · rw [(Tree.add_eq normal t).1 blank] at conflicts
      exact absurd conflicts ((fresh_sprout _ _).1 _ _ (Nat.succ_pos _)).quiet
    · rw [(Tree.add_eq normal t).2 blank] at conflicts ⊢
      exact (insert_conflict t route _ route conflicts).2 request

/-- **Refused attempts move nothing.** After an attempt that is refused for a conflict, or whose pattern is improper,
every request finds what it found before, for every method and path, in any table. -/
theorem lookup_refused {t : Table α} {a : Attempt α} (refused : a.Refused (t.attempt a).1) (m : Method)
    (path : String) : (t.attempt a).2.lookup m path = t.lookup m path := by
  have same : ∀ m bs, ((t.attempt a).2.trees m).find bs = (t.trees m).find bs := by
    intro m bs
    rw [attempt_trees]
    split
    · next hm =>
      subst hm
      rw [attempt_outcome] at refused
      rcases refused with conflicts | ⟨fault, improper⟩
      · exact add_conflict a.value conflicts bs
      · simp only [Tree.add, improper]
    · rfl
  simp only [Table.lookup, same]

end JsonService.Route
