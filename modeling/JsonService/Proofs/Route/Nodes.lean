import JsonService.Proofs.Route.Routes
import JsonService.Proofs.Route.Traces
import JsonService.Proofs.Route.Written

/-!
# One node

What an insertion does at one node of a tree, whatever the route and the tree are. If the route begins with the text of
the node, all goes on as at a node without text, and there it ends, or goes on below one branch or below the node for
any text, or something is grown (`InsertedBare`). If it does not, the text is split (`insertSplit`). At a parameter it
ends, or goes on below one of the texts that may follow (`InsertedParameter`).

**Results.**
* `insert_cases`, `insert_bare`: what an insertion does at a node for literal text.
* `label_insert`: what is left of the text of such a node.
* `insert_parameter_cases`: what an insertion does at a parameter.
-/
namespace JsonService.Route

variable {α : Type}

/-! ## Literal text -/

/-- A node with another text. -/
def Tree.withLabel (label : List Cell) : Tree α → Tree α
  | .node _ priority leaf branches wild => .node label priority leaf branches wild

theorem label_withLabel (label : List Cell) (t : Tree α) : (t.withLabel label).label = label := by
  cases t
  rfl

theorem commonLength_append (label cs : List Cell) : commonLength (label ++ cs) label = label.length := by
  induction label with
  | nil => cases cs <;> rfl
  | cons c label ih => simp [commonLength, ih]

theorem exists_common (cs label : List Cell) : ∃ upper cs' label', cs = upper ++ cs' ∧ label = upper ++ label' ∧
    commonLength cs label = upper.length ∧
      ∀ c x, cs'.head? = some c → label'.head? = some x → c ≠ x := by
  induction cs generalizing label with
  | nil => exact ⟨[], [], label, rfl, rfl, by simp [commonLength], by simp⟩
  | cons c cs ih =>
    cases label with
    | nil => exact ⟨[], c :: cs, [], rfl, rfl, rfl, by simp⟩
    | cons x label =>
      by_cases same : c = x
      · subst same
        obtain ⟨upper, cs', label', rfl, rfl, common, parted⟩ := ih label
        exact ⟨c :: upper, cs', label', rfl, rfl, by simp [commonLength, common], parted⟩
      · refine ⟨[], c :: cs, x :: label, rfl, rfl, by simp [commonLength, same], ?_⟩
        intro d y hd hy
        cases hd
        cases hy
        exact same

theorem commonLength_eq_zero {c d : Cell} {cs label : List Cell} (h : commonLength (c :: cs) (d :: label) = 0) :
    c ≠ d := by
  rintro rfl
  rw [commonLength, if_pos rfl] at h
  cases h

theorem addBranch_mem (key : UInt8) (t : Tree α) (branches : List (UInt8 × Tree α)) :
    ∀ b ∈ addBranch key t branches, b = (key, t) ∨ b ∈ branches :=
  fun _ hb => List.mem_cons.mp ((addBranch_perm key t branches).mem_iff.mp hb)

section
variable (route : List Cell) (leaf : Leaf α) (label : List Cell) (priority : Nat) (value : Option (Leaf α))
  (branches : List (UInt8 × Tree α)) (wild : Option (Wild α))

/-- What an insertion comes to at a node without text. -/
inductive InsertedBare : List Cell → Outcome × Tree α → Prop
  | taken (old : Leaf α) : value = some old →
      InsertedBare [] (.error (.conflict (describe route old.names)), .node [] (priority + 1) value branches wild)
  | free : value = none → InsertedBare [] (.ok (), .node [] (priority + 1) (some leaf) branches wild)
  | branch {c : Cell} {cs : List Cell} {t : Tree α} {branches' : List (UInt8 × Tree α)} : c.leads = true →
      branches.lookup c.byte = some t →
      (∀ k, branches'.lookup k =
        if k = c.byte then some (t.insert route leaf (c :: cs)).2 else branches.lookup k) →
      (∀ b ∈ branches', b = (c.byte, (t.insert route leaf (c :: cs)).2) ∨ b ∈ branches) →
      InsertedBare (c :: cs) ((t.insert route leaf (c :: cs)).1, .node [] (priority + 1) value branches' wild)
  | wild {c : Cell} {cs : List Cell} : c.opens = true →
      InsertedBare (c :: cs) ((insertWild route leaf (c :: cs) wild).1,
        .node [] (priority + 1) value branches (insertWild route leaf (c :: cs) wild).2)
  | grown {c : Cell} {cs : List Cell} : c.opens = false → (c.leads = true → branches.lookup c.byte = none) →
      InsertedBare (c :: cs) ((sprout leaf 1 (cs.length + 2) (c :: cs)).1, .node [] (priority + 1) value
        (addBranch c.byte (sprout leaf 1 (cs.length + 2) (c :: cs)).2 branches) wild)

theorem insertBranch_mem (c : Cell) (cs : List Cell) (before : List (UInt8 × Tree α)) {t : Tree α}
    (known : branches.lookup c.byte = some t) {outcome : Outcome} {branches' : List (UInt8 × Tree α)}
    (h : insertBranch route leaf (c :: cs) before branches = some (outcome, branches')) :
    ∀ b ∈ branches', b = (c.byte, (t.insert route leaf (c :: cs)).2) ∨ b ∈ before ++ branches := by
  induction branches generalizing before with
  | nil => cases known
  | cons b rest ih =>
    obtain ⟨key, s⟩ := b
    simp only [List.lookup_cons] at known
    split at known
    · next hit =>
      obtain rfl := Option.some.inj known
      obtain rfl : c.byte = key := eq_of_beq hit
      simp only [insertBranch, List.head?_cons, Option.map_some, if_true] at h
      cases h
      intro b hb
      have mem := (promote_perm before _ rest).mem_iff.mp hb
      simp only [List.mem_append, List.mem_cons] at mem ⊢
      tauto
    · next missed =>
      have hkey : key ≠ c.byte := Ne.symm (beq_eq_false_iff_ne.mp missed)
      simp only [insertBranch, List.head?_cons, Option.map_some, Option.some.injEq, hkey, if_false] at h
      have mem := ih (before ++ [(key, s)]) known h
      rwa [List.append_assoc, List.singleton_append] at mem

theorem insert_bare (cs : List Cell) : InsertedBare route leaf priority value branches wild cs
    (Tree.insert route leaf cs (.node [] priority value branches wild)) := by
  have none : commonLength cs [] = 0 := by cases cs <;> rfl
  simp only [Tree.insert, none, List.length_nil, Nat.lt_irrefl, if_false, List.drop_zero]
  cases cs with
  | nil =>
    cases value with
    | none => exact .free rfl
    | some old => exact .taken old rfl
  | cons c cs =>
    simp only
    by_cases leads : c.leads = true ∧ (branches.lookup c.byte).isSome = true
    · obtain ⟨t, known⟩ := Option.isSome_iff_exists.mp leads.2
      obtain ⟨grown, hgrown, hlookup⟩ := insertBranch_known route leaf c cs branches [] rfl known
      simp only [leads.1, if_true, hgrown]
      exact .branch leads.1 known hlookup (insertBranch_mem route leaf branches c cs [] known hgrown)
    · simp only [branch_missed route leaf c cs branches leads]
      split
      · next opens => exact .wild opens
      · next opens =>
        exact .grown (by simpa using opens) fun h => Option.not_isSome_iff_eq_none.mp fun h' => leads ⟨h, h'⟩

theorem insert_withLabel (cs : List Cell) :
    Tree.insert route leaf (label ++ cs) (.node label priority value branches wild) =
      ((Tree.insert route leaf cs (.node [] priority value branches wild)).1,
        (Tree.insert route leaf cs (.node [] priority value branches wild)).2.withLabel label) := by
  have none : commonLength cs [] = 0 := by cases cs <;> rfl
  simp only [Tree.insert, commonLength_append, none, List.length_nil, Nat.lt_irrefl, if_false, List.drop_left',
    List.drop_zero]
  cases cs with
  | nil => cases value <;> rfl
  | cons c rest =>
    simp only
    generalize (if c.leads = true then insertBranch route leaf (c :: rest) [] branches else Option.none) = found
    cases found with
    | some below => rfl
    | none => by_cases opens : c.opens = true <;> simp only [opens, if_true, Bool.false_eq_true, if_false] <;> rfl

/-- What an insertion makes of a node that stands in the way with the end of its text, `lower`. -/
def insertSplit (upper : List Cell) (lower : UInt8 × Tree α) : List Cell → Outcome × Tree α
  | [] => (.ok (), .node upper (priority + 1) (some leaf) [lower] none)
  | c :: rest =>
    if c.opens then
      ((growWild leaf (c :: rest)).1, .node upper (priority + 1) none [lower] (growWild leaf (c :: rest)).2)
    else
      ((sprout leaf 1 (rest.length + 2) (c :: rest)).1, .node upper (priority + 1) none
        (addBranch c.byte (sprout leaf 1 (rest.length + 2) (c :: rest)).2 [lower]) none)

/-- At a node whose text the route leaves, the text is split there. -/
theorem insert_parted (upper lower : List Cell) (x : Cell) (cs : List Cell)
    (common : commonLength (upper ++ cs) (upper ++ x :: lower) = upper.length) :
    Tree.insert route leaf (upper ++ cs) (.node (upper ++ x :: lower) priority value branches wild) =
      insertSplit leaf priority upper (x.byte, .node (x :: lower) priority value branches wild) cs := by
  have lt : upper.length < (upper ++ x :: lower).length := by simp
  simp only [Tree.insert, common, if_pos lt, List.drop_left', List.take_left', List.headD_cons]
  cases cs with
  | nil => rfl
  | cons c rest => rfl

/-- At any node one of the two is the case. -/
theorem insert_cases (cs : List Cell) :
    (∃ cs', cs = label ++ cs' ∧ Tree.insert route leaf cs (.node label priority value branches wild) =
      ((Tree.insert route leaf cs' (.node [] priority value branches wild)).1,
        (Tree.insert route leaf cs' (.node [] priority value branches wild)).2.withLabel label)) ∨
    ∃ upper x lower cs', label = upper ++ x :: lower ∧ cs = upper ++ cs' ∧
      (∀ c, cs'.head? = some c → c ≠ x) ∧ Tree.insert route leaf cs (.node label priority value branches wild) =
        insertSplit leaf priority upper (x.byte, .node (x :: lower) priority value branches wild) cs' := by
  obtain ⟨upper, cs', label', rfl, rfl, common, parted⟩ := exists_common cs label
  cases label' with
  | nil =>
    rw [List.append_nil]
    exact .inl ⟨cs', rfl, insert_withLabel route leaf upper priority value branches wild cs'⟩
  | cons x lower =>
    exact .inr ⟨upper, x, lower, cs', rfl, rfl, fun c hc => parted c x hc rfl,
      insert_parted route leaf priority value branches wild upper lower x cs' common⟩

end

theorem label_insert (route : List Cell) (leaf : Leaf α) (cs : List Cell) (t : Tree α) :
    (t.insert route leaf cs).2.label = t.label.take (commonLength cs t.label) := by
  obtain ⟨label, priority, value, branches, wild⟩ := t
  obtain ⟨upper, cs', label', rfl, rfl, common, -⟩ := exists_common cs label
  rw [Tree.label, common, List.take_left' rfl]
  cases label' with
  | nil =>
    rw [List.append_nil, insert_withLabel, label_withLabel]
  | cons x lower =>
    rw [insert_parted route leaf priority value branches wild upper lower x cs' common]
    cases cs' with
    | nil => rfl
    | cons c rest =>
      rw [insertSplit]
      split <;> rfl

theorem label_insert_bare (route : List Cell) (leaf : Leaf α) (cs : List Cell) (priority : Nat)
    (value : Option (Leaf α)) (branches : List (UInt8 × Tree α)) (wild : Option (Wild α)) :
    (Tree.insert route leaf cs (.node [] priority value branches wild)).2.label = [] := by
  rw [label_insert, Tree.label, List.take_nil]

/-! ## What is grown for a parameter or a catch-all -/

section
variable (grow : List Cell → List Cell → Outcome × Tree α) (leaf : Leaf α)

theorem sproutWild_eq_parameter {k : Nat} (hk : k < mostParameters) (cs : List Cell) :
    sproutWild grow leaf 3 (parameterLabel k ++ cs) =
      if holdsParameter (segmentOf cs) = true then (.error .segment, none)
      else if cs = [] then (.ok (), some (.parameter (parameterLabel k) (some leaf) []))
      else ((grow (segmentOf cs) (cs.drop (segmentLength cs))).1,
        some (.parameter (parameterLabel k) none [(grow (segmentOf cs) (cs.drop (segmentLength cs))).2])) := by
  have second : (bytes (parameterLabel k ++ cs))[1]? = some (letter k) := rfl
  have notStar : ¬(bytes (parameterLabel k ++ cs))[1]? = some star := by
    simp [second, (letter_ne hk).2.1]
  have slashless : ∀ c ∈ parameterLabel k, c.byte ≠ slash := by
    simpa [parameterLabel, (letter_ne hk).1] using ⟨by decide, by decide⟩
  have hlength : segmentLength (parameterLabel k ++ cs) = 3 + segmentLength cs := segmentLength_append slashless cs
  have hsuffix : ((parameterLabel k ++ cs).take (3 + segmentLength cs)).drop 3 = segmentOf cs := by
    rw [show 3 + segmentLength cs = (parameterLabel k).length + segmentLength cs from rfl, List.take_length_add_append]
    rfl
  have hrest : (parameterLabel k ++ cs).drop (3 + segmentLength cs) = cs.drop (segmentLength cs) := by
    rw [← List.drop_drop]
    rfl
  have hlabel : (parameterLabel k ++ cs).take 3 = parameterLabel k := rfl
  have empty : (segmentOf cs).isEmpty = true ↔ cs = [] := by
    rw [List.isEmpty_iff]
    exact ⟨fun nil => Classical.byContradiction fun ne => segmentOf_ne_nil ne nil, fun nil => by rw [nil]; rfl⟩
  simp only [sproutWild, if_neg notStar, hlength, hsuffix, hrest, hlabel, empty]

theorem sproutWild_eq_rest {label : List Cell} (h : StarLabel label) (cs : List Cell) :
    sproutWild grow leaf label.length (label ++ cs) =
      if cs = [] then (.ok (), some (.rest label leaf)) else (.error .catchAll, none) := by
  obtain ⟨name, rfl, proper, rest, -⟩ := h
  have isStar : (bytes (Raw.cells (.braces name) ++ cs))[1]? = some star := by
    cases name with
    | nil => exact absurd rfl proper.notNil
    | cons c name =>
      have first : c.byte = star := by simpa [Raw.isRest, bytes] using rest
      rw [← first]
      rfl
  have whole : (Raw.cells (.braces name)).length = (Raw.cells (.braces name) ++ cs).length ↔ cs = [] := by
    rw [List.length_append, ← List.length_eq_zero_iff]
    omega
  rw [sproutWild, if_pos isStar]
  simp only [whole]
  split
  · next nil => rw [nil, List.append_nil]
  · rfl

end

/-! ## A parameter -/

theorem insertSuffix_mem (t : Tree α) (suffixes : List (Tree α)) :
    ∀ s ∈ insertSuffix t suffixes, s = t ∨ s ∈ suffixes := by
  intro s hs
  simp only [insertSuffix, List.mem_append, List.mem_cons] at hs
  rcases hs with hs | rfl | hs
  · exact .inr (List.takeWhile_subset _ hs)
  · exact .inl rfl
  · exact .inr (List.mem_of_mem_drop hs)


section
variable (route : List Cell) (leaf : Leaf α) (label : List Cell) (value : Option (Leaf α)) (suffixes : List (Tree α))

/-- What an insertion comes to at a parameter. -/
inductive InsertedParameter (cs : List Cell) : Outcome × Wild α → Prop
  | conflict (words : String) : InsertedParameter cs (.error (.conflict words), .parameter label value suffixes)
  | free : bytes (cs.take label.length) = bytes label → cs.drop label.length = [] → value = none →
      InsertedParameter cs (.ok (), .parameter label (some leaf) suffixes)
  | below {rest : List Cell} {before after : List (Tree α)} {t : Tree α} : bytes (cs.take label.length) = bytes label →
      cs.drop label.length = rest → rest ≠ [] → suffixes = before ++ t :: after →
      (∀ s ∈ before, bytes s.label ≠ bytes (segmentOf rest)) → bytes t.label = bytes (segmentOf rest) →
      InsertedParameter cs ((t.insert route leaf rest).1,
        .parameter label value (before ++ (t.insert route leaf rest).2 :: after))
  | segment {rest : List Cell} : bytes (cs.take label.length) = bytes label → cs.drop label.length = rest → rest ≠ [] →
      (∀ s ∈ suffixes, bytes s.label ≠ bytes (segmentOf rest)) → holdsParameter (segmentOf rest) = true →
      InsertedParameter cs (.error .segment, .parameter label value suffixes)
  | grown {rest : List Cell} : bytes (cs.take label.length) = bytes label → cs.drop label.length = rest → rest ≠ [] →
      (∀ s ∈ suffixes, bytes s.label ≠ bytes (segmentOf rest)) → holdsParameter (segmentOf rest) = false →
      InsertedParameter cs
        ((sproutSuffix leaf (rest.length + 1) (segmentOf rest) (rest.drop (segmentLength rest))).1,
          .parameter label value (insertSuffix
            (sproutSuffix leaf (rest.length + 1) (segmentOf rest) (rest.drop (segmentLength rest))).2 suffixes))

theorem insertSuffixed_eq (cs suffix : List Cell) :
    (insertSuffixed route leaf cs suffix suffixes = none ∧ ∀ s ∈ suffixes, bytes s.label ≠ bytes suffix) ∨
      ∃ before t after, suffixes = before ++ t :: after ∧ (∀ s ∈ before, bytes s.label ≠ bytes suffix) ∧
        bytes t.label = bytes suffix ∧ insertSuffixed route leaf cs suffix suffixes =
          some ((t.insert route leaf cs).1, before ++ (t.insert route leaf cs).2 :: after) := by
  induction suffixes with
  | nil => exact .inl ⟨rfl, nofun⟩
  | cons t rest ih =>
    by_cases same : bytes t.label = bytes suffix
    · refine .inr ⟨[], t, rest, rfl, nofun, same, ?_⟩
      simp only [insertSuffixed, same, if_true, List.nil_append]
    · rcases ih with ⟨none, others⟩ | ⟨before, s, after, rfl, others, found, some⟩
      · refine .inl ⟨?_, List.forall_mem_cons.mpr ⟨same, others⟩⟩
        simp only [insertSuffixed, same, if_false, none]
      · refine .inr ⟨t :: before, s, after, rfl, List.forall_mem_cons.mpr ⟨same, others⟩, found, ?_⟩
        simp only [insertSuffixed, same, if_false, some, List.cons_append]

theorem insert_parameter_cases (cs : List Cell) : InsertedParameter route leaf label value suffixes cs
    ((Wild.parameter label value suffixes).insert route leaf cs) := by
  have refused : ∀ names below, InsertedParameter route leaf label value suffixes cs
      (.error (conflict route cs label names below), .parameter label value suffixes) := by
    intro names below
    obtain ⟨words, hwords⟩ := conflict_words route cs label names below
    rw [hwords]
    exact .conflict words
  simp only [Wild.insert]
  split
  · exact refused _ _
  · next same =>
    have same : bytes (cs.take label.length) = bytes label := by simpa using same
    cases rest : cs.drop label.length with
    | nil =>
      cases value with
      | some old => exact .conflict _
      | none => exact .free same rest rfl
    | cons c cs' =>
      simp only
      rcases insertSuffixed_eq route leaf suffixes (c :: cs') (segmentOf (c :: cs')) with
        ⟨none, others⟩ | ⟨before, t, after, rfl, others, found, some⟩
      · rw [← segmentOf, none]
        simp only
        split
        · next holds => exact .segment same rest (List.cons_ne_nil _ _) others holds
        · next holds => exact .grown same rest (List.cons_ne_nil _ _) others (by simpa using holds)
      · rw [← segmentOf, some]
        exact .below same rest (List.cons_ne_nil _ _) rfl others found

end

end JsonService.Route
