import JsonService.Proofs.Route.Tokens

/-!
# The routes of a tree

`Tree.routes` lists the routes that a tree holds, each with what it leads to. A tree is `Valid` if its literal
text has no braces, if every branch is told apart by the first byte of its routes, and if a parameter is
written as it should be at its place and followed by nothing or by a new segment.

**Growing (`Grows`).** An insertion that succeeds adds one route, and one whose shape is new; an insertion that
fails changes no route, whatever nodes it leaves behind. The lemmas say how a part of a tree that grows makes
the whole tree grow.
-/
namespace JsonService.Route

variable {α : Type}

/-- A route and what it leads to. -/
abbrev Entry (α : Type) := List Token × Leaf α

def prefixed (ts : List Token) (es : List (Entry α)) : List (Entry α) := es.map fun e => (ts ++ e.1, e.2)

def leafRoutes (leaf : Option (Leaf α)) : List (Entry α) := leaf.toList.map fun l => ([], l)

mutual

def Tree.routes : Tree α → List (Entry α)
  | .node label _ leaf branches wild =>
    prefixed (literal (bytes label)) (leafRoutes leaf ++ branchRoutes branches ++ wildRoutes wild)

def branchRoutes : List (UInt8 × Tree α) → List (Entry α)
  | [] => []
  | (_, t) :: rest => t.routes ++ branchRoutes rest

def wildRoutes : Option (Wild α) → List (Entry α)
  | none => []
  | some w => w.routes

def Wild.routes : Wild α → List (Entry α)
  | .parameter _ leaf suffixes => prefixed [.parameter] (leafRoutes leaf ++ suffixRoutes suffixes)
  | .rest label leaf => [([.rest label], leaf)]

def suffixRoutes : List (Tree α) → List (Entry α)
  | [] => []
  | t :: rest => t.routes ++ suffixRoutes rest

end

/-- Every route begins with this byte. -/
def BeginWith (b : UInt8) (es : List (Entry α)) : Prop := ∀ e ∈ es, e.1.head? = some (.byte b)

/-- A label of literal text. -/
def PlainLabel (label : List Cell) : Prop := label = plain (bytes label) ∧ Braceless (bytes label)

mutual

/-- A tree below `k` parameters that is as it should be. -/
def Tree.Valid (k : Nat) : Tree α → Prop
  | .node label _ _ branches wild => PlainLabel label ∧ validBranches k branches ∧ validWild k wild

def validBranches (k : Nat) : List (UInt8 × Tree α) → Prop
  | [] => True
  | (key, t) :: rest =>
    (t.Valid k ∧ BeginWith key t.routes) ∧ (∀ b ∈ rest, b.1 ≠ key) ∧ validBranches k rest

def validWild (k : Nat) : Option (Wild α) → Prop
  | none => True
  | some w => w.Valid k

def Wild.Valid (k : Nat) : Wild α → Prop
  | .parameter label _ suffixes =>
    (k < mostParameters ∧ label = parameterLabel k) ∧ validSuffixes (k + 1) suffixes
  | .rest _ _ => True

def validSuffixes (k : Nat) : List (Tree α) → Prop
  | [] => True
  | t :: rest => (t.label = plain [slash] ∧ t.Valid k) ∧ rest = []

end

/-! ## Lists of routes -/

section
variable {ts : List Token} {es es' : List (Entry α)} {e x : Entry α}

@[simp] theorem prefixed_nil (ts : List Token) : prefixed ts ([] : List (Entry α)) = [] := rfl

theorem prefixed_prefixed (ts ts' : List Token) (es : List (Entry α)) :
    prefixed ts (prefixed ts' es) = prefixed (ts ++ ts') es := by
  simp [prefixed, Function.comp_def, List.append_assoc]

theorem mem_prefixed : x ∈ prefixed ts es ↔ ∃ e ∈ es, (ts ++ e.1, e.2) = x := List.mem_map

theorem mem_leafRoutes {leaf : Option (Leaf α)} : x ∈ leafRoutes leaf ↔ ∃ l, leaf = some l ∧ ([], l) = x := by
  simp [leafRoutes]

@[simp] theorem leafRoutes_none : leafRoutes (none : Option (Leaf α)) = [] := rfl

@[simp] theorem leafRoutes_some (l : Leaf α) : leafRoutes (some l) = [([], l)] := rfl

theorem branchRoutes_eq (bs : List (UInt8 × Tree α)) : branchRoutes bs = bs.flatMap (·.2.routes) := by
  induction bs with
  | nil => rfl
  | cons b bs ih => rw [branchRoutes, ih, List.flatMap_cons]

theorem beginWith_literal (b : UInt8) (bs : List UInt8) (es : List (Entry α)) :
    BeginWith b (prefixed (literal (b :: bs)) es) := by
  intro x hx
  obtain ⟨e, -, rfl⟩ := mem_prefixed.mp hx
  rfl

end

@[simp] theorem validBranches_nil (k : Nat) : validBranches k ([] : List (UInt8 × Tree α)) := by
  simp [validBranches]

@[simp] theorem validWild_none (k : Nat) : validWild k (none : Option (Wild α)) := by
  simp [validWild]

@[simp] theorem validWild_some {k : Nat} {w : Wild α} : validWild k (some w) ↔ w.Valid k := by
  rw [validWild]

@[simp] theorem valid_rest (k : Nat) (label : List Cell) (leaf : Leaf α) : (Wild.rest label leaf).Valid k := by
  simp [Wild.Valid]

theorem routes_node (bs : List UInt8) (priority : Nat) (leaf : Option (Leaf α)) (branches : List (UInt8 × Tree α))
    (wild : Option (Wild α)) : (Tree.node (plain bs) priority leaf branches wild).routes =
      prefixed (literal bs) (leafRoutes leaf ++ branchRoutes branches ++ wildRoutes wild) := by
  rw [Tree.routes, bytes_plain]

/-! ## Branches -/

theorem validBranches_iff {k : Nat} {bs : List (UInt8 × Tree α)} : validBranches k bs ↔
    (∀ b ∈ bs, b.2.Valid k ∧ BeginWith b.1 b.2.routes) ∧ (bs.map Prod.fst).Nodup := by
  induction bs with
  | nil => simp [validBranches]
  | cons b bs ih =>
    rw [validBranches, ih, List.forall_mem_cons, List.map_cons, List.nodup_cons]
    constructor
    · intro hex
      obtain ⟨hb, hne, hbs, hnodup⟩ := hex
      refine ⟨⟨hb, hbs⟩, ?_, hnodup⟩
      intro hmem
      obtain ⟨c, hc, heq⟩ := List.mem_map.mp hmem
      exact hne c hc heq
    · intro hex
      obtain ⟨⟨hb, hbs⟩, hnot, hnodup⟩ := hex
      refine ⟨hb, ?_, hbs, hnodup⟩
      intro c hc heq
      exact hnot (heq ▸ List.mem_map_of_mem hc)

/-- The order of branches does not matter. -/
theorem validBranches_perm {k : Nat} {bs bs' : List (UInt8 × Tree α)} (hp : bs.Perm bs') :
    validBranches k bs ↔ validBranches k bs' := by
  rw [validBranches_iff, validBranches_iff, (hp.map Prod.fst).nodup_iff]
  constructor
  · intro hex
    obtain ⟨h, hn⟩ := hex
    exact ⟨fun b hb => h b (hp.mem_iff.mpr hb), hn⟩
  · intro hex
    obtain ⟨h, hn⟩ := hex
    exact ⟨fun b hb => h b (hp.mem_iff.mp hb), hn⟩

theorem branchRoutes_perm {bs bs' : List (UInt8 × Tree α)} (hp : bs.Perm bs') :
    (branchRoutes bs).Perm (branchRoutes bs') := by
  rw [branchRoutes_eq, branchRoutes_eq]
  exact hp.flatMap_right _

/-- The elements at the end of a list that satisfy `p` are the last ones. -/
theorem take_append_idle {β : Type} (p : β → Bool) (l : List β) :
    l.take (l.length - (l.reverse.takeWhile p).length) ++ (l.reverse.takeWhile p).reverse = l := by
  have hsplit : (l.reverse.dropWhile p).reverse ++ (l.reverse.takeWhile p).reverse = l := by
    rw [← List.reverse_append, List.takeWhile_append_dropWhile, List.reverse_reverse]
  have whole : ∀ d w : List β, (d ++ w.reverse).take ((d ++ w.reverse).length - w.length) ++ w.reverse =
      d ++ w.reverse := by
    intro d w
    simp
  have h := whole (l.reverse.dropWhile p).reverse (l.reverse.takeWhile p)
  rwa [hsplit] at h

theorem addBranch_perm (key : UInt8) (t : Tree α) (bs : List (UInt8 × Tree α)) :
    (addBranch key t bs).Perm ((key, t) :: bs) := by
  unfold addBranch
  refine List.perm_middle.trans ?_
  rw [take_append_idle]

theorem promote_perm (before : List (UInt8 × Tree α)) (b : UInt8 × Tree α) (after : List (UInt8 × Tree α)) :
    (promote before b after).Perm (before ++ b :: after) := by
  unfold promote
  have h := take_append_idle (fun c : UInt8 × Tree α => decide (c.2.priority < b.2.priority)) before
  have shuffle : ∀ d w : List (UInt8 × Tree α), (d ++ b :: w ++ after).Perm ((d ++ w) ++ b :: after) := by
    intro d w
    simp only [List.append_assoc, List.cons_append]
    exact List.Perm.append_left d List.perm_middle.symm
  have whole := shuffle (before.take (before.length -
    (before.reverse.takeWhile fun c => decide (c.2.priority < b.2.priority)).length))
    (before.reverse.takeWhile fun c => decide (c.2.priority < b.2.priority)).reverse
  rwa [h] at whole

/-! ## First tokens -/

/-- A token up to the words of a catch-all. -/
def Token.shape : Token → Token
  | .rest _ => .rest []
  | t => t

theorem leafRoutes_head {leaf : Option (Leaf α)} {x : Entry α} (hx : x ∈ leafRoutes leaf) : x.1.head? = none := by
  obtain ⟨l, -, rfl⟩ := mem_leafRoutes.mp hx
  rfl

theorem branchRoutes_head {k : Nat} {bs : List (UInt8 × Tree α)} (hv : validBranches k bs) {x : Entry α}
    (hx : x ∈ branchRoutes bs) : ∃ c ∈ bs, x.1.head? = some (.byte c.1) := by
  rw [branchRoutes_eq] at hx
  obtain ⟨c, hc, hx⟩ := List.mem_flatMap.mp hx
  exact ⟨c, hc, ((validBranches_iff.mp hv).1 c hc).2 x hx⟩

theorem wildRoutes_head {wild : Option (Wild α)} {x : Entry α} (hx : x ∈ wildRoutes wild) :
    ∃ t, x.1.head? = some t ∧ ∀ b, t.shape ≠ .byte b := by
  cases wild with
  | none => simp [wildRoutes] at hx
  | some w =>
    cases w with
    | parameter label leaf suffixes =>
      rw [wildRoutes, Wild.routes] at hx
      obtain ⟨e, -, rfl⟩ := mem_prefixed.mp hx
      exact ⟨.parameter, rfl, nofun⟩
    | rest label leaf =>
      rw [wildRoutes, Wild.routes, List.mem_singleton] at hx
      subst hx
      exact ⟨.rest label, rfl, nofun⟩

theorem suffixRoutes_head {k : Nat} {suffixes : List (Tree α)} (hv : validSuffixes k suffixes) {x : Entry α}
    (hx : x ∈ suffixRoutes suffixes) : x.1.head? = some (.byte slash) := by
  cases suffixes with
  | nil => simp [suffixRoutes] at hx
  | cons t rest =>
    obtain ⟨⟨hlabel, -⟩, rfl⟩ := hv
    obtain ⟨label, priority, value, branches, wild⟩ := t
    obtain rfl : label = plain [slash] := hlabel
    rw [suffixRoutes, suffixRoutes, List.append_nil, routes_node] at hx
    exact beginWith_literal slash [] _ x hx

/-! ## Growing -/

/-- What an insertion makes of the routes `old`: with success it adds a route of a new shape, without success
nothing. -/
structure Grows (old new : List (Entry α)) (e : Entry α) (outcome : Outcome) : Prop where
  mem : ∀ x, x ∈ new ↔ x ∈ old ∨ (outcome = .ok () ∧ x = e)
  fresh : outcome = .ok () → ∀ x ∈ old, x.1.map Token.shape ≠ e.1.map Token.shape

namespace Grows

variable {old new old' new' : List (Entry α)} {e : Entry α} {outcome : Outcome}

theorem refused (es : List (Entry α)) (e : Entry α) (fault : Fault) : Grows es es e (.error fault) where
  mem := by simp
  fresh := nofun

theorem sprouted (e : Entry α) : Grows [] [e] e (.ok ()) where
  mem := by simp
  fresh := by simp

theorem congr (h : Grows old new e outcome) (hold : ∀ x, x ∈ old' ↔ x ∈ old) (hnew : ∀ x, x ∈ new' ↔ x ∈ new) :
    Grows old' new' e outcome where
  mem x := by rw [hold, hnew, h.mem]
  fresh ok x hx := h.fresh ok x ((hold x).mp hx)

theorem prefixed (ts : List Token) (h : Grows old new e outcome) :
    Grows (prefixed ts old) (prefixed ts new) (ts ++ e.1, e.2) outcome where
  mem x := by
    simp only [mem_prefixed, h.mem]
    constructor
    · intro hex
      rcases hex with ⟨y, hy | ⟨ok, rfl⟩, rfl⟩
      · exact Or.inl ⟨y, hy, rfl⟩
      · exact Or.inr ⟨ok, rfl⟩
    · intro hor
      rcases hor with ⟨y, hy, rfl⟩ | ⟨ok, rfl⟩
      · exact ⟨y, Or.inl hy, rfl⟩
      · exact ⟨e, Or.inr ⟨ok, rfl⟩, rfl⟩
  fresh ok x hx := by
    obtain ⟨y, hy, rfl⟩ := mem_prefixed.mp hx
    have := h.fresh ok y hy
    simpa using this

/-- Routes that begin otherwise do not stand in the way of the new one. -/
theorem among (before after : List (Entry α)) (h : Grows old new e outcome)
    (hother : ∀ x ∈ before ++ after, x.1.head?.map Token.shape ≠ e.1.head?.map Token.shape) :
    Grows (before ++ old ++ after) (before ++ new ++ after) e outcome where
  mem x := by
    simp only [List.mem_append, h.mem]
    constructor
    · intro hor
      rcases hor with (hx | hx | hx) | hx
      · exact Or.inl (Or.inl (Or.inl hx))
      · exact Or.inl (Or.inl (Or.inr hx))
      · exact Or.inr hx
      · exact Or.inl (Or.inr hx)
    · intro hor
      rcases hor with ((hx | hx) | hx) | hx
      · exact Or.inl (Or.inl hx)
      · exact Or.inl (Or.inr (Or.inl hx))
      · exact Or.inr hx
      · exact Or.inl (Or.inr (Or.inr hx))
  fresh ok x hx := by
    have other : x ∈ before ++ after → x.1.map Token.shape ≠ e.1.map Token.shape := by
      intro hx heq
      have hhead := congrArg List.head? heq
      rw [List.head?_map, List.head?_map] at hhead
      exact hother x hx hhead
    simp only [List.mem_append] at hx other
    rcases hx with (hx | hx) | hx
    · exact other (Or.inl hx)
    · exact h.fresh ok x hx
    · exact other (Or.inr hx)

theorem beginWith {b : UInt8} (h : Grows old new e outcome) (hold : BeginWith b old)
    (he : e.1.head? = some (.byte b)) : BeginWith b new := by
  intro x hx
  rcases (h.mem x).mp hx with hx | ⟨-, rfl⟩
  · exact hold x hx
  · exact he

end Grows

end JsonService.Route
