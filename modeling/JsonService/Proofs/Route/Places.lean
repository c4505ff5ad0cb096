import JsonService.Proofs.Route.Sane

/-!
# Places in a tree

A route whose parameters fill their segments (`Roomy`) takes a place in a tree: a leaf at the end of the nodes for its
text and its parameters (`Tree.Occupied`). The names of its parameters and of its catch-all have no part in this, and
neither has what follows its parameters within their segments in other routes.

**Results.**
* `occupied_append_iff`: the text of a node may be cut anywhere.
* `sprout_occupied`, `growWild_occupied`: what is grown for a route takes its place.
* `label_insert_slash`, `label_insert_other`: the slash that ends a segment is told from other texts that may follow its
  parameter, whatever is inserted below them.
-/
namespace JsonService.Route

variable {α : Type}

/-! ## Routes of whole segments -/

/-- Every parameter is followed by nothing, or by a new segment. -/
def Roomy : List Token → Prop
  | [] => True
  | .parameter :: ts => StartsSegment ts ∧ Roomy ts
  | .byte _ :: ts => Roomy ts
  | .rest _ :: ts => Roomy ts

theorem roomy_literal {bs : List UInt8} {ts : List Token} : Roomy (literal bs ++ ts) ↔ Roomy ts := by
  induction bs with
  | nil => exact Iff.rfl
  | cons b bs ih => exact ih

theorem Written.nil_of_tokens {cs : List Cell} (h : Written cs []) : cs = [] := by
  cases h
  rfl

theorem Written.byte_first {cs : List Cell} {ts : List Token} {b : UInt8} (h : Written cs (.byte b :: ts)) :
    ∃ c cs', cs = c :: cs' ∧ c.byte = b ∧ c.leads = true ∧ Written cs' ts := by
  cases h with
  | byte leads h => exact ⟨_, _, rfl, rfl, leads, h⟩

theorem Regular.behind_leads {c : Cell} {cs : List Cell} (h : Regular (c :: cs)) (leads : c.leads = true) :
    Regular cs := by
  refine h.2.resolve_right ?_
  rintro ⟨closes, -⟩
  rw [(leads_iff.mp leads).2] at closes
  cases closes

theorem not_isBrace_slash : ¬IsBrace slash := by decide

theorem Written.behind_parameter {k : Nat} (hk : k < mostParameters) {cs : List Cell} {ts : List Token}
    (h : Written cs ts) (roomy : StartsSegment ts) (regular : Regular (parameterLabel k ++ cs)) :
    cs = [] ∧ ts = [] ∨ ∃ cs' ts', cs = ⟨slash, false⟩ :: cs' ∧ ts = .byte slash :: ts' ∧ Written cs' ts' ∧
      Regular cs' := by
  rcases roomy with rfl | head
  · exact .inl ⟨h.nil_of_tokens, rfl⟩
  · obtain ⟨ts, rfl⟩ := List.head?_eq_some_iff.mp head
    obtain ⟨c, cs, rfl, hc, leads, written⟩ := h.byte_first
    have inner : Regular (c :: cs) := by
      refine (regular.drop_braces (letter_open hk)).resolve_right ?_
      rintro ⟨d, hd, brace⟩
      cases hd
      exact not_isBrace_slash (hc ▸ brace)
    have bare : c.escaped = false := by
      by_contra marked
      exact not_isBrace_slash (hc ▸ inner.1 (by simpa using marked))
    refine .inr ⟨cs, ts, ?_, rfl, written, inner.behind_leads leads⟩
    obtain ⟨b, e⟩ := c
    simp_all

/-! ## Places -/

/-- What follows a parameter that ends its segment. -/
def afterSegment (suffixes : List (Tree α)) : Option (Tree α) := suffixes.find? fun t => bytes t.label = [slash]

/-- What a node for any text has of a place, as far as `R` says so of the trees below. -/
inductive BelowWild (R : Tree α → List Token → Prop) : Wild α → List Token → Prop
  | rest (label cs : List Cell) (leaf : Leaf α) (us : List Token) : BelowWild R (.rest label leaf) (.rest cs :: us)
  | last (label : List Cell) (leaf : Leaf α) (suffixes : List (Tree α)) :
      BelowWild R (.parameter label (some leaf) suffixes) [.parameter]
  | segment (label : List Cell) (leaf : Option (Leaf α)) {suffixes : List (Tree α)} {t : Tree α} {us : List Token} :
      afterSegment suffixes = some t → R t (.byte slash :: us) →
      BelowWild R (.parameter label leaf suffixes) (.parameter :: .byte slash :: us)

/-- What a node has of a place, below its text. -/
inductive Below (R : Tree α → List Token → Prop) :
    Option (Leaf α) → List (UInt8 × Tree α) → Option (Wild α) → List Token → Prop
  | here (leaf : Leaf α) (branches : List (UInt8 × Tree α)) (wild : Option (Wild α)) :
      Below R (some leaf) branches wild []
  | branch (leaf : Option (Leaf α)) (wild : Option (Wild α)) {branches : List (UInt8 × Tree α)} {b : UInt8}
      {t : Tree α} {us : List Token} : branches.lookup b = some t → R t (.byte b :: us) →
      Below R leaf branches wild (.byte b :: us)
  | wild (leaf : Option (Leaf α)) (branches : List (UInt8 × Tree α)) {w : Wild α} {us : List Token} :
      BelowWild R w us → Below R leaf branches (some w) us

/-- The place of a route is taken. -/
inductive Tree.Occupied : Tree α → List Token → Prop
  | node (label : List Cell) (priority : Nat) {leaf : Option (Leaf α)} {branches : List (UInt8 × Tree α)}
      {wild : Option (Wild α)} {us ts : List Token} : ts = literal (bytes label) ++ us →
      Below Tree.Occupied leaf branches wild us → Tree.Occupied (.node label priority leaf branches wild) ts

section
variable {label label' : List Cell} {priority : Nat} {leaf : Option (Leaf α)} {branches : List (UInt8 × Tree α)}
  {wild : Option (Wild α)} {ts us : List Token}

theorem occupied_bare_iff :
    (Tree.node [] priority leaf branches wild).Occupied us ↔ Below Tree.Occupied leaf branches wild us := by
  constructor
  · intro h
    cases h with
    | node _ _ eq h => exact eq ▸ h
  · exact .node [] priority rfl

theorem Tree.Occupied.below_label (h : (Tree.node label priority leaf branches wild).Occupied ts) :
    ∃ us, ts = literal (bytes label) ++ us ∧ Below Tree.Occupied leaf branches wild us := by
  cases h with
  | node _ _ eq h => exact ⟨_, eq, h⟩

/-- The text of a node may be cut anywhere. -/
theorem occupied_append_iff : (Tree.node (label ++ label') priority leaf branches wild).Occupied ts ↔
    ∃ us, ts = literal (bytes label) ++ us ∧ (Tree.node label' priority leaf branches wild).Occupied us := by
  have split : ∀ us : List Token, literal (bytes (label ++ label')) ++ us =
      literal (bytes label) ++ (literal (bytes label') ++ us) := by
    intro us
    rw [bytes, bytes, bytes, List.map_append, literal_append, List.append_assoc]
  constructor
  · intro h
    cases h with
    | node _ _ eq h => exact ⟨_, eq.trans (split _), .node label' priority rfl h⟩
  · rintro ⟨us, rfl, h⟩
    cases h with
    | node _ _ eq h => exact .node _ priority (by rw [eq, split]) h

end

theorem Tree.Occupied.withLabel {t : Tree α} {us : List Token} (h : t.Occupied us) (bare : t.label = [])
    (label : List Cell) : (t.withLabel label).Occupied (literal (bytes label) ++ us) := by
  obtain ⟨text, priority, leaf, branches, wild⟩ := t
  obtain rfl : text = [] := bare
  exact .node label priority rfl (occupied_bare_iff.mp h)

/-! ## Growth -/

/-- A tree grown for a segment that follows a parameter takes the place of what it was grown for. -/
def GrowsPlace (size : Nat) (grow : List Cell → List Cell → Outcome × Tree α) : Prop :=
  ∀ (suffix cs : List Cell) (ts : List Token), cs.length + 1 < size → Written cs ts → Regular cs → Roomy ts →
    (grow suffix cs).1 = .ok () →
      (grow suffix cs).2.label = suffix ∧ (grow suffix cs).2.Occupied (literal (bytes suffix) ++ ts)

theorem segmentOf_slash (cs : List Cell) : segmentOf (⟨slash, false⟩ :: cs) = [⟨slash, false⟩] := by
  rw [segmentOf, segmentLength_slash]
  rfl

theorem sproutWild_occupied {size : Nat} {grow : List Cell → List Cell → Outcome × Tree α} (leaf : Leaf α)
    (hgrow : GrowsPlace size grow) {cs : List Cell} {ts : List Token} (hsize : cs.length ≤ size + 2) (h : Opening cs ts)
    (regular : Regular cs) (roomy : Roomy ts) {count : Nat} (hfind : findParameter cs = .ok (some (0, count)))
    (ok : (sproutWild grow leaf count cs).1 = .ok ()) :
    ∃ w, (sproutWild grow leaf count cs).2 = some w ∧ BelowWild Tree.Occupied w ts := by
  cases h with
  | @parameter cs ts k hk h =>
    obtain rfl : count = 3 := by
      rw [findParameter_parameter hk] at hfind
      cases hfind
      rfl
    rw [sproutWild_eq_parameter grow leaf hk] at ok ⊢
    rcases h.behind_parameter hk roomy.1 regular with ⟨rfl, rfl⟩ | ⟨cs, ts, rfl, rfl, written, regular⟩
    · exact ⟨_, rfl, .last _ leaf []⟩
    · have hrest : (⟨slash, false⟩ :: cs).drop (segmentLength (⟨slash, false⟩ :: cs)) = cs := by
        rw [segmentLength_slash]
        rfl
      simp only [segmentOf_slash, hrest, holdsParameter_slash, List.cons_ne_nil, if_false, Bool.false_eq_true]
        at ok ⊢
      have short : cs.length + 1 < size := by
        simp only [parameterLabel, List.length_append, List.length_cons, List.length_nil] at hsize
        omega
      obtain ⟨label, occupied⟩ := hgrow [⟨slash, false⟩] cs ts short written regular roomy.2 ok
      refine ⟨_, rfl, .segment _ none ?_ occupied⟩
      rw [afterSegment, List.find?_cons_of_pos (by rw [label]; rfl)]
  | @rest label cs ts hstar h =>
    obtain rfl : count = label.length := by
      obtain ⟨name, rfl, -, -, found⟩ := hstar
      rw [found] at hfind
      cases hfind
      rfl
    rw [sproutWild_eq_rest grow leaf hstar] at ok ⊢
    split at ok
    · next nil =>
      rw [if_pos nil]
      exact ⟨_, rfl, .rest label label leaf ts⟩
    · cases ok

mutual

theorem sprout_occupied (leaf : Leaf α) : ∀ (fuel priority : Nat) (cs : List Cell) (ts : List Token),
    cs.length < fuel → Written cs ts → Regular cs → Roomy ts → (sprout leaf priority fuel cs).1 = .ok () →
      (sprout leaf priority fuel cs).2.Occupied ts
  | 0, _, _, _, hfuel, _, _, _, _ => absurd hfuel (Nat.not_lt_zero _)
  | fuel + 1, priority, cs, ts, hfuel, h, regular, roomy, ok => by
    obtain ⟨lit, cs', ts', rfl, rfl, hlit, tail⟩ := h.exists_literal
    rcases tail with ⟨rfl, rfl⟩ | opening
    · rw [List.append_nil, sprout, findParameter_literal_only hlit]
      exact .node lit priority rfl (.here leaf [] none)
    · obtain ⟨label, more, rfl, -, -, found⟩ := opening.exists_label
      have hsize : (label ++ more).length ≤ fuel + 2 := by
        rw [List.length_append] at hfuel
        omega
      have grown := sproutWild_occupied leaf (sproutSuffix_occupied leaf fuel) hsize opening (regular.behind hlit)
        (roomy_literal.mp roomy) (found more)
      simp only [sprout, findParameter_literal hlit, found, Except.map, Option.map, Nat.zero_add, List.drop_left',
        List.take_left'] at ok ⊢
      split at ok
      · cases ok
      · next outcome wild other heq =>
        rw [heq] at grown
        obtain ⟨w, rfl, occupied⟩ := grown ok
        exact .node lit priority rfl (.wild none [] occupied)

theorem sproutSuffix_occupied (leaf : Leaf α) : ∀ fuel : Nat, GrowsPlace fuel (sproutSuffix leaf fuel)
  | 0, _, _, _, hfuel, _, _, _, _ => absurd hfuel (Nat.not_lt_zero _)
  | fuel + 1, suffix, cs, ts, hfuel, h, regular, roomy, ok => by
    cases cs with
    | nil =>
      rw [h.eq_nil rfl]
      exact ⟨rfl, .node suffix 1 rfl (.here leaf [] none)⟩
    | cons c cs =>
      rw [sproutSuffix] at ok ⊢
      by_cases opens : c.opens = true
      · rw [if_pos opens] at ok ⊢
        have opening : Opening (c :: cs) ts := h.opening opens
        obtain ⟨label, more, heq, -, -, found⟩ := opening.exists_label
        have hfind := found more
        rw [← heq] at hfind
        simp only [hfind] at ok ⊢
        obtain ⟨w, hw, occupied⟩ := sproutWild_occupied leaf (sproutSuffix_occupied leaf fuel) (by omega) opening
          regular roomy hfind ok
        rw [hw]
        exact ⟨rfl, .node suffix 1 rfl (.wild none [] occupied)⟩
      · rw [if_neg opens] at ok ⊢
        have grown := sprout_occupied leaf fuel 1 (c :: cs) ts (by omega) h regular roomy ok
        obtain ⟨leads, ts', rfl, -⟩ := h.byte_cases (by simpa using opens)
        refine ⟨rfl, .node suffix 1 rfl (.branch none none (t := (sprout leaf 1 fuel (c :: cs)).2) ?_ grown)⟩
        exact List.lookup_cons_self

end

theorem growWild_occupied (leaf : Leaf α) {cs : List Cell} {ts : List Token} (h : Opening cs ts) (regular : Regular cs)
    (roomy : Roomy ts) (ok : (growWild leaf cs).1 = .ok ()) :
    ∃ w, (growWild leaf cs).2 = some w ∧ BelowWild Tree.Occupied w ts := by
  obtain ⟨label, more, rfl, -, -, found⟩ := h.exists_label
  rw [growWild, found more] at ok ⊢
  exact sproutWild_occupied leaf (sproutSuffix_occupied leaf _) (by omega) h regular roomy (found more) ok

/-! ## What follows a parameter -/

section
variable {before after suffixes : List (Tree α)} {t t' : Tree α}

theorem afterSegment_mem (h : afterSegment suffixes = some t) : t ∈ suffixes ∧ bytes t.label = [slash] :=
  ⟨List.mem_of_find?_eq_some h, by simpa using List.find?_some h⟩

theorem afterSegment_first (others : ∀ s ∈ before, bytes s.label ≠ [slash]) (ht : bytes t.label = [slash]) :
    afterSegment (before ++ t :: after) = some t := by
  have missed : before.find? (fun s => bytes s.label = [slash]) = none := by simpa using others
  rw [afterSegment, List.find?_append, missed, List.find?_cons_of_pos (by simpa using ht)]
  rfl

/-- A text that does not end the segment may be another one, or missing. -/
theorem afterSegment_other (ht : bytes t.label ≠ [slash]) :
    afterSegment (before ++ t :: after) = afterSegment (before ++ after) := by
  rw [afterSegment, afterSegment, List.find?_append, List.find?_append, List.find?_cons_of_neg (by simpa using ht)]

theorem insertSuffix_split (t : Tree α) (suffixes : List (Tree α)) :
    ∃ before after, suffixes = before ++ after ∧ insertSuffix t suffixes = before ++ t :: after := by
  refine ⟨suffixes.takeWhile fun s => t.label.length ≤ s.label.length,
    suffixes.dropWhile fun s => t.label.length ≤ s.label.length, List.takeWhile_append_dropWhile.symm, ?_⟩
  rw [insertSuffix]
  congr
  conv_lhs => rw [← List.takeWhile_append_dropWhile (p := fun s => t.label.length ≤ s.label.length) (l := suffixes)]
  exact List.drop_left' (by simp)

theorem afterSegment_insertSuffix (suffixes : List (Tree α)) (ht : bytes t.label ≠ [slash]) :
    afterSegment (insertSuffix t suffixes) = afterSegment suffixes := by
  obtain ⟨before, after, split, inserted⟩ := insertSuffix_split t suffixes
  rw [inserted, afterSegment_other ht, split]

theorem afterSegment_insertSuffix_self (others : ∀ s ∈ suffixes, bytes s.label ≠ [slash])
    (ht : bytes t.label = [slash]) : afterSegment (insertSuffix t suffixes) = some t := by
  obtain ⟨before, after, rfl, inserted⟩ := insertSuffix_split t suffixes
  rw [inserted]
  exact afterSegment_first (fun s hs => others s (List.mem_append_left _ hs)) ht

end

theorem label_sproutSuffix (leaf : Leaf α) (fuel : Nat) (suffix cs : List Cell) :
    (sproutSuffix leaf fuel suffix cs).2.label = suffix := by
  cases fuel with
  | zero => rfl
  | succ fuel =>
    cases cs with
    | nil => rfl
    | cons c cs =>
      rw [sproutSuffix]
      split
      · split <;> rfl
      · rfl

theorem cell_eq_of_byte {c d : Cell} (hc : c.leads = true) (hd : d.leads = true)
    (marks : c.escaped = true → IsBrace c.byte) (marks' : d.escaped = true → IsBrace d.byte) (same : c.byte = d.byte) :
    c = d := by
  obtain ⟨b, escaped⟩ := c
  obtain ⟨b', escaped'⟩ := d
  obtain rfl : b = b' := same
  cases escaped <;> cases escaped' <;> simp_all [Cell.leads, IsBrace]

theorem byte_ne_of_parted {c x : Cell} {lower : List Cell} (hlower : SaneLabel True (x :: lower))
    (leads : c.leads = true) (marks : c.escaped = true → IsBrace c.byte) (parted : c ≠ x) : c.byte ≠ x.byte :=
  fun same => parted (cell_eq_of_byte leads (hlower.1 x List.mem_cons_self) marks
    (hlower.2 trivial x List.mem_cons_self) same)

theorem unmarked_slash {c : Cell} (marks : c.escaped = true → IsBrace c.byte) (h : c.byte = slash) :
    c = ⟨slash, false⟩ := by
  obtain ⟨b, escaped⟩ := c
  obtain rfl : b = slash := h
  cases escaped with
  | false => rfl
  | true => exact absurd (marks rfl) not_isBrace_slash

/-- A segment that is a slash: behind a parameter, the route is regular there. -/
theorem segmentOf_eq_slash {cs : List Cell} (h : bytes (segmentOf cs) = [slash]) (behind : Regular cs ∨ BraceFirst cs) :
    ∃ cs', cs = ⟨slash, false⟩ :: cs' ∧ Regular cs := by
  have head := head?_segmentOf cs
  cases cs with
  | nil => cases h
  | cons c cs =>
    have first := congrArg List.head? h
    rw [bytes, List.head?_map, head] at first
    have hc : c.byte = slash := Option.some.inj first
    have regular : Regular (c :: cs) := by
      refine behind.resolve_right ?_
      rintro ⟨d, hd, brace⟩
      cases hd
      exact not_isBrace_slash (hc ▸ brace)
    exact ⟨cs, by rw [unmarked_slash regular.1 hc], regular⟩

theorem SaneSuffix.slash {t : Tree α} (h : SaneSuffix True t) (ht : bytes t.label = [slash]) :
    t.label = [⟨slash, false⟩] ∧ t.Sane True := by
  obtain ⟨c, hc, label⟩ : ∃ c : Cell, c.byte = Route.slash ∧ t.label = [c] := by
    obtain ⟨c, label, hc⟩ := List.map_eq_singleton_iff.mp ht
    exact ⟨c, hc, label⟩
  have text : TextFirst t.label := ⟨c, by rw [label]; rfl, hc ▸ not_isBrace_slash⟩
  have sane := sane_mono t _ True (fun _ => ⟨trivial, text⟩) h.1
  obtain ⟨_, priority, value, branches, wild⟩ := t
  obtain rfl : _ = [c] := label
  exact ⟨by rw [Tree.label, unmarked_slash (sane.1.2 trivial c (List.mem_singleton_self c)) hc], sane⟩

theorem label_insert_slash (route : List Cell) (leaf : Leaf α) (cs : List Cell) {t : Tree α}
    (h : t.label = [⟨slash, false⟩]) : (t.insert route leaf (⟨slash, false⟩ :: cs)).2.label = [⟨slash, false⟩] := by
  rw [label_insert, h]
  cases cs <;> simp [commonLength]

/-- No text of a whole segment is cut down to a slash. -/
theorem label_insert_other (route : List Cell) (leaf : Leaf α) (cs : List Cell) {t : Tree α} (one : OneSegment t.label)
    (h : bytes t.label ≠ [slash]) : bytes (t.insert route leaf cs).2.label ≠ [slash] := by
  rw [label_insert]
  intro cut
  obtain ⟨c, hc, byte⟩ := List.map_eq_singleton_iff.mp cut
  have split : t.label = [] ++ c :: t.label.drop (commonLength cs t.label) := by
    conv_lhs => rw [← List.take_append_drop (commonLength cs t.label) t.label, hc]
    rfl
  rw [one [] c _ split byte] at split
  exact h (by rw [split, ← byte]; rfl)

end JsonService.Route
