import JsonService.Proofs.Route.Normal

/-!
# Any route as it is written in a tree

What gets into a tree has letters for names, whatever the route says: literal text in which braces may stand for
themselves, parameters anywhere in a segment, catch-alls anywhere (`Written`). Renaming goes wrong in one way. The mark
of a doubled brace right behind a parameter stays where it was when the name before it gets shorter, so behind such a
place a byte that is no brace may be marked, and a brace not (`Regular` says that it is so nowhere else).

**Results.**
* `findParameter_eq_some`: what a parameter that is found looks like.
* `replaceCells_middle_any`: what a parameter leaves behind it when it is renamed.
* `normalize_written`: every route that is renamed at all is written so, and regular.
-/
namespace JsonService.Route

/-! ## Literal cells -/

/-- A byte that stands doubled for itself. -/
def IsBrace (b : UInt8) : Prop := b = openBrace ∨ b = closeBrace

instance (b : UInt8) : Decidable (IsBrace b) := inferInstanceAs (Decidable (_ ∨ _))

/-- Cells of literal text: none opens or closes a parameter. -/
def Literal (cs : List Cell) : Prop := ∀ c ∈ cs, c.leads = true

theorem leads_iff {c : Cell} : c.leads = true ↔ c.opens = false ∧ c.closes = false := by
  obtain ⟨b, escaped⟩ := c
  cases escaped <;> simp [Cell.leads, Cell.opens, Cell.closes]

theorem literal_cons_iff {c : Cell} {cs : List Cell} : Literal (c :: cs) ↔ c.leads = true ∧ Literal cs :=
  List.forall_mem_cons

theorem literal_nil_cells : Literal [] := nofun

theorem literal_append_iff {cs ds : List Cell} : Literal (cs ++ ds) ↔ Literal cs ∧ Literal ds :=
  List.forall_mem_append

theorem findParameter_literal {lit : List Cell} (h : Literal lit) (cs : List Cell) :
    findParameter (lit ++ cs) = (findParameter cs).map (·.map fun (start, n) => (start + lit.length, n)) := by
  induction lit with
  | nil => rcases hcs : findParameter cs with e | _ | ⟨start, n⟩ <;> simp [hcs, Except.map]
  | cons c lit ih =>
    obtain ⟨leads, h⟩ := literal_cons_iff.mp h
    obtain ⟨opens, closes⟩ := leads_iff.mp leads
    simp only [List.cons_append, findParameter, opens, closes, ih h, Bool.false_eq_true, if_false]
    rcases findParameter cs with e | _ | ⟨start, n⟩ <;> simp [Except.map, Nat.add_assoc]

theorem findParameter_literal_only {lit : List Cell} (h : Literal lit) : findParameter lit = .ok none := by
  have found := findParameter_literal h []
  rwa [List.append_nil] at found

/-! ## Parameters that are found -/

/-- A name that a parameter may have. -/
structure ProperName (name : List Cell) : Prop where
  notNil : name ≠ []
  open_ : ∀ c ∈ name, c.closes = false
  tail : ∀ c ∈ name.tail, c.byte ≠ slash

theorem closes_iff {c : Cell} : c.closes = true ↔ c = ⟨closeBrace, false⟩ := by
  obtain ⟨b, escaped⟩ := c
  cases escaped <;> simp [Cell.closes]

theorem opens_iff {c : Cell} : c.opens = true ↔ c = ⟨openBrace, false⟩ := by
  obtain ⟨b, escaped⟩ := c
  cases escaped <;> simp [Cell.opens]

theorem parameterEnd_eq_ok {last : UInt8} {cs : List Cell} {n : Nat} (h : parameterEnd last cs = .ok n) :
    ∃ name after, cs = name ++ ⟨closeBrace, false⟩ :: after ∧ n = name.length + 1 ∧
      ∀ c ∈ name, c.closes = false ∧ c.byte ≠ slash := by
  induction cs generalizing last n with
  | nil => cases h
  | cons c cs ih =>
    rw [parameterEnd] at h
    by_cases closes : c.closes = true
    · rw [if_pos closes] at h
      split at h
      · cases h
      · cases h
        exact ⟨[], cs, by rw [closes_iff.mp closes]; rfl, rfl, List.forall_mem_nil _⟩
    · rw [if_neg closes] at h
      split at h
      · cases h
      · next allowed =>
        obtain ⟨m, hm, rfl⟩ : ∃ m, parameterEnd c.byte cs = .ok m ∧ m + 1 = n := by
          cases hm : parameterEnd c.byte cs with
          | error e => rw [hm] at h; cases h
          | ok m => rw [hm] at h; exact ⟨m, rfl, Except.ok.inj h⟩
        obtain ⟨name, after, rfl, rfl, proper⟩ := ih hm
        refine ⟨c :: name, after, rfl, rfl, List.forall_mem_cons.mpr ⟨⟨?_, ?_⟩, proper⟩⟩
        · simpa using closes
        · exact fun eq => allowed (.inr eq)

/-- What a parameter that is found looks like: literal text before it, and a proper name in braces. -/
theorem findParameter_eq_some {cs : List Cell} {start count : Nat}
    (h : findParameter cs = .ok (some (start, count))) :
    ∃ lit name after, cs = lit ++ (Raw.cells (.braces name) ++ after) ∧ Literal lit ∧ lit.length = start ∧
      count = name.length + 2 ∧ ProperName name := by
  induction cs generalizing start with
  | nil => cases h
  | cons c cs ih =>
    rw [findParameter] at h
    by_cases closes : c.closes = true
    · rw [if_pos closes] at h
      cases h
    rw [if_neg closes] at h
    by_cases opens : c.opens = true
    · rw [if_pos opens] at h
      cases cs with
      | nil => cases h
      | cons d cs =>
        rw [parameterLength] at h
        by_cases closed : d.byte = closeBrace
        · rw [if_pos closed] at h
          cases h
        rw [if_neg closed] at h
        cases hend : parameterEnd d.byte cs with
        | error e => rw [hend] at h; cases h
        | ok n =>
          rw [hend] at h
          obtain ⟨name, after, rfl, rfl, proper⟩ := parameterEnd_eq_ok hend
          cases h
          have open_ : d.closes = false := by simp [Cell.closes, closed]
          refine ⟨[], d :: name, after, ?_, literal_nil_cells, rfl, rfl, ?_⟩
          · simp [Raw.cells, opens_iff.mp opens]
          · exact ⟨List.cons_ne_nil _ _, List.forall_mem_cons.mpr ⟨open_, fun c hc => (proper c hc).1⟩,
              fun c hc => (proper c hc).2⟩
    · rw [if_neg opens] at h
      have leads : c.leads = true := leads_iff.mpr ⟨by simpa using opens, by simpa using closes⟩
      cases hrest : findParameter cs with
      | error e => rw [hrest] at h; cases h
      | ok found =>
        rw [hrest] at h
        cases found with
        | none => cases h
        | some place =>
          obtain ⟨s, n⟩ := place
          cases h
          obtain ⟨lit, name, after, rfl, hlit, rfl, rfl, proper⟩ := ih hrest
          exact ⟨c :: lit, name, after, rfl, literal_cons_iff.mpr ⟨leads, hlit⟩, rfl, rfl, proper⟩

theorem findParameter_eq_none {cs : List Cell} (h : findParameter cs = .ok none) : Literal cs := by
  induction cs with
  | nil => exact literal_nil_cells
  | cons c cs ih =>
    rw [findParameter] at h
    by_cases closes : c.closes = true
    · rw [if_pos closes] at h
      cases h
    rw [if_neg closes] at h
    by_cases opens : c.opens = true
    · rw [if_pos opens] at h
      cases hlength : parameterLength cs <;> rw [hlength] at h <;> cases h
    · rw [if_neg opens] at h
      cases hrest : findParameter cs with
      | error e => rw [hrest] at h; cases h
      | ok found =>
        rw [hrest] at h
        cases found with
        | none =>
          exact literal_cons_iff.mpr ⟨leads_iff.mpr ⟨by simpa using opens, by simpa using closes⟩, ih hrest⟩
        | some place => cases h

/-! ## Written routes -/

/-- How a catch-all is written: with a proper name that begins with a star. -/
def StarLabel (label : List Cell) : Prop :=
  ∃ name, label = Raw.cells (.braces name) ∧ ProperName name ∧ Raw.isRest name = true ∧
    ∀ more, findParameter (label ++ more) = .ok (some (0, label.length))

/-- Cells that write some tokens. -/
inductive Written : List Cell → List Token → Prop
  | nil : Written [] []
  | byte : c.leads = true → Written cs ts → Written (c :: cs) (.byte c.byte :: ts)
  | parameter (k : Nat) : k < mostParameters → Written cs ts → Written (parameterLabel k ++ cs) (.parameter :: ts)
  | rest : StarLabel label → Written cs ts → Written (label ++ cs) (.rest label :: ts)

namespace Written

theorem literal {lit : List Cell} (h : Literal lit) : Written lit (Route.literal (bytes lit)) := by
  induction lit with
  | nil => exact .nil
  | cons c lit ih =>
    obtain ⟨leads, h⟩ := literal_cons_iff.mp h
    exact .byte leads (ih h)

theorem append {cs cs' : List Cell} {ts ts' : List Token} (h : Written cs ts) (h' : Written cs' ts') :
    Written (cs ++ cs') (ts ++ ts') := by
  induction h with
  | nil => exact h'
  | byte leads _ ih => exact .byte leads ih
  | parameter k hk _ ih => rw [List.append_assoc]; exact .parameter k hk ih
  | rest star _ ih => rw [List.append_assoc]; exact .rest star ih

end Written

/-- Cells that begin with a parameter or a catch-all, and write some tokens. -/
inductive Opening : List Cell → List Token → Prop
  | parameter (k : Nat) : k < mostParameters → Written cs ts → Opening (parameterLabel k ++ cs) (.parameter :: ts)
  | rest : StarLabel label → Written cs ts → Opening (label ++ cs) (.rest label :: ts)

theorem Opening.written {cs : List Cell} {ts : List Token} (h : Opening cs ts) : Written cs ts := by
  cases h with
  | parameter k hk h => exact .parameter k hk h
  | rest star h => exact .rest star h

theorem Written.exists_literal {cs : List Cell} {ts : List Token} (h : Written cs ts) : ∃ lit cs' ts',
    cs = lit ++ cs' ∧ ts = Route.literal (bytes lit) ++ ts' ∧ Literal lit ∧
      (cs' = [] ∧ ts' = [] ∨ Opening cs' ts') := by
  induction h with
  | nil => exact ⟨[], [], [], rfl, rfl, literal_nil_cells, .inl ⟨rfl, rfl⟩⟩
  | @byte cs ts c leads _ ih =>
    obtain ⟨lit, cs', ts', rfl, rfl, hlit, tail⟩ := ih
    exact ⟨c :: lit, cs', ts', rfl, rfl, literal_cons_iff.mpr ⟨leads, hlit⟩, tail⟩
  | parameter k hk h _ => exact ⟨[], _, _, rfl, rfl, literal_nil_cells, .inr (.parameter k hk h)⟩
  | rest star h _ => exact ⟨[], _, _, rfl, rfl, literal_nil_cells, .inr (.rest star h)⟩

theorem StarLabel.ne_nil {label : List Cell} (h : StarLabel label) : label ≠ [] := by
  obtain ⟨name, rfl, -⟩ := h
  exact List.cons_ne_nil _ _

theorem Written.eq_nil {cs : List Cell} {ts : List Token} (h : Written cs ts) (nil : cs = []) : ts = [] := by
  cases h with
  | nil => rfl
  | byte => cases nil
  | parameter => cases nil
  | rest star => exact absurd (List.append_eq_nil_iff.mp nil).1 star.ne_nil

/-- What a parameter or a catch-all is written as, and that it is found. -/
theorem Opening.exists_label {cs : List Cell} {ts : List Token} (h : Opening cs ts) : ∃ label cs',
    cs = label ++ cs' ∧ (∀ c ∈ label, c.byte ≠ slash) ∧ (∃ d label', label = d :: label' ∧ d.opens = true) ∧
      ∀ more, findParameter (label ++ more) = .ok (some (0, label.length)) := by
  cases h with
  | @parameter cs ts k hk h =>
    refine ⟨parameterLabel k, cs, rfl, ?_, ⟨_, _, rfl, rfl⟩, findParameter_parameter hk⟩
    intro c hc
    simp only [parameterLabel, List.mem_cons, List.not_mem_nil, or_false] at hc
    rcases hc with rfl | rfl | rfl
    · decide
    · exact (letter_ne hk).1
    · decide
  | @rest label cs ts star h =>
    obtain ⟨name, rfl, proper, rest, found⟩ := star
    refine ⟨_, cs, rfl, ?_, ⟨_, _, rfl, rfl⟩, found⟩
    have slashless : ∀ c ∈ name, c.byte ≠ slash := by
      cases name with
      | nil => exact absurd rfl proper.notNil
      | cons c name =>
        have first : c.byte = star := by simpa [Raw.isRest, bytes] using rest
        exact List.forall_mem_cons.mpr ⟨by rw [first]; decide, proper.tail⟩
    intro c hc
    simp only [Raw.cells, List.cons_append, List.mem_cons, List.mem_append, List.not_mem_nil, or_false] at hc
    rcases hc with rfl | hc | rfl
    · decide
    · exact slashless c hc
    · decide

theorem Written.opening {c : Cell} {cs : List Cell} {ts : List Token} (h : Written (c :: cs) ts)
    (opens : c.opens = true) : Opening (c :: cs) ts := by
  generalize heq : c :: cs = all at h
  cases h with
  | nil => cases heq
  | byte leads =>
    cases heq
    simp [(leads_iff.mp leads).1] at opens
  | parameter k hk h => exact .parameter k hk h
  | rest star h => exact .rest star h

theorem Written.byte_cases {c : Cell} {cs : List Cell} {ts : List Token} (h : Written (c :: cs) ts)
    (opens : c.opens = false) : c.leads = true ∧ ∃ ts', ts = .byte c.byte :: ts' ∧ Written cs ts' := by
  obtain ⟨lit, cs', ts', heq, rfl, hlit, tail⟩ := h.exists_literal
  cases lit with
  | nil =>
    rcases tail with ⟨rfl, -⟩ | opening
    · cases heq
    · obtain ⟨label, more, rfl, -, ⟨d, label', rfl, hd⟩, -⟩ := opening.exists_label
      cases heq
      simp [hd] at opens
  | cons d lit =>
    cases heq
    obtain ⟨leads, hlit⟩ := literal_cons_iff.mp hlit
    refine ⟨leads, _, rfl, (Written.literal hlit).append ?_⟩
    rcases tail with ⟨rfl, rfl⟩ | opening
    · exact .nil
    · exact opening.written

theorem Written.literal_cases {lit cs : List Cell} {ts : List Token} (h : Written (lit ++ cs) ts) (hlit : Literal lit) :
    ∃ ts', ts = Route.literal (bytes lit) ++ ts' ∧ Written cs ts' := by
  induction lit generalizing ts with
  | nil => exact ⟨ts, rfl, h⟩
  | cons c lit ih =>
    obtain ⟨leads, hlit⟩ := literal_cons_iff.mp hlit
    have first : Written (c :: (lit ++ cs)) ts := h
    obtain ⟨-, ts', rfl, behind⟩ := first.byte_cases (leads_iff.mp leads).1
    obtain ⟨ts'', rfl, rest⟩ := ih behind hlit
    exact ⟨ts'', rfl, rest⟩

/-! ## Segments -/

def segmentOf (cs : List Cell) : List Cell := cs.take (segmentLength cs)

theorem segmentLength_append {lit : List Cell} (h : ∀ c ∈ lit, c.byte ≠ slash) (cs : List Cell) :
    segmentLength (lit ++ cs) = lit.length + segmentLength cs := by
  have passed : (lit ++ cs).takeWhile (·.byte ≠ slash) = lit ++ cs.takeWhile (·.byte ≠ slash) :=
    List.takeWhile_append_of_pos (by simpa using h)
  simp only [segmentLength, passed, List.length_append, Nat.add_lt_add_iff_left]
  split <;> omega

theorem segmentLength_le (cs : List Cell) : segmentLength cs ≤ cs.length := by
  simp only [segmentLength]
  split <;> omega

theorem segmentOf_ne_nil {cs : List Cell} (h : cs ≠ []) : segmentOf cs ≠ [] := by
  cases cs with
  | nil => exact absurd rfl h
  | cons c cs =>
    have pos : 0 < segmentLength (c :: cs) := by
      simp only [segmentLength, List.length_cons]
      split <;> omega
    obtain ⟨n, hn⟩ := Nat.exists_eq_succ_of_ne_zero (Nat.ne_of_gt pos)
    simp [segmentOf, hn]

theorem segmentOf_append_drop (cs : List Cell) : segmentOf cs ++ cs.drop (segmentLength cs) = cs :=
  List.take_append_drop _ _

theorem head?_segmentOf (cs : List Cell) : (segmentOf cs).head?.map (·.byte) = cs.head?.map (·.byte) := by
  by_cases nil : cs = []
  · rw [nil]
    rfl
  · obtain ⟨c, more, segment⟩ := List.ne_nil_iff_exists_cons.mp (segmentOf_ne_nil nil)
    have whole := segmentOf_append_drop cs
    rw [segment] at whole ⊢
    rw [← whole]
    rfl

theorem segmentLength_le_of_slash {lit : List Cell} {c : Cell} (mem : c ∈ lit) (slash : c.byte = slash)
    (cs : List Cell) : segmentLength (lit ++ cs) ≤ lit.length := by
  have stops : ((lit ++ cs).takeWhile (·.byte ≠ Route.slash)).length < lit.length := by
    induction lit with
    | nil => cases mem
    | cons d lit ih =>
      by_cases hd : d.byte = Route.slash
      · simp [hd]
      · have mem : c ∈ lit := by
          rcases List.mem_cons.mp mem with rfl | mem
          · exact absurd slash hd
          · exact mem
        rw [List.cons_append, List.takeWhile_cons_of_pos (by simpa using hd), List.length_cons, List.length_cons]
        have := ih mem
        omega
  simp only [segmentLength, List.length_append]
  split <;> omega

/-- A segment without a parameter is literal text, and the rest of the route is written behind it. -/
theorem Written.segment {cs : List Cell} {ts : List Token} (h : Written cs ts)
    (none : holdsParameter (segmentOf cs) = false) : ∃ ts', Literal (segmentOf cs) ∧
      ts = Route.literal (bytes (segmentOf cs)) ++ ts' ∧ Written (cs.drop (segmentLength cs)) ts' := by
  obtain ⟨lit, cs', ts', rfl, rfl, hlit, tail⟩ := h.exists_literal
  have written : Written cs' ts' := by
    rcases tail with ⟨rfl, rfl⟩ | opening
    · exact .nil
    · exact opening.written
  by_cases short : segmentLength (lit ++ cs') ≤ lit.length
  · refine ⟨Route.literal (bytes (lit.drop (segmentLength (lit ++ cs')))) ++ ts', ?_, ?_, ?_⟩
    · rw [segmentOf, List.take_append_of_le_length short]
      exact fun c hc => hlit c (List.mem_of_mem_take hc)
    · rw [segmentOf, List.take_append_of_le_length short, ← List.append_assoc, ← literal_append, bytes, bytes, bytes,
        ← List.map_append, List.take_append_drop]
    · rw [List.drop_append_of_le_length short]
      exact .append (.literal fun c hc => hlit c (List.mem_of_mem_drop hc)) written
  · have slashless : ∀ c ∈ lit, c.byte ≠ slash :=
      fun c hc eq => short (segmentLength_le_of_slash hc eq cs')
    rcases tail with ⟨rfl, rfl⟩ | opening
    · have whole := segmentLength_le (lit ++ [])
      rw [List.length_append, List.length_nil, Nat.add_zero] at whole
      exact absurd whole short
    · -- a parameter that begins in the segment ends in it
      obtain ⟨label, cs'', rfl, slashless', -, found⟩ := opening.exists_label
      have segment : segmentOf (lit ++ (label ++ cs'')) = lit ++ (label ++ segmentOf cs'') := by
        rw [segmentOf, segmentLength_append slashless, segmentLength_append slashless', List.take_length_add_append,
          List.take_length_add_append, segmentOf]
      rw [segment, holdsParameter, findParameter_literal hlit, found] at none
      cases none

/-! ## Regular routes -/

/-- The first cell is a brace, marked or not. -/
def BraceFirst (cs : List Cell) : Prop := ∃ d, cs.head? = some d ∧ IsBrace d.byte

/-- The first cell is one of a byte that is no brace. -/
def TextFirst (cs : List Cell) : Prop := ∃ d, cs.head? = some d ∧ ¬IsBrace d.byte

/-- Only braces are marked, up to a parameter that a brace follows. -/
def Regular : List Cell → Prop
  | [] => True
  | c :: cs => (c.escaped = true → IsBrace c.byte) ∧
      (Regular cs ∨ c.closes = true ∧ BraceFirst cs)

theorem BraceFirst.congr {cs cs' : List Cell} (h : BraceFirst cs)
    (same : cs.head?.map (·.byte) = cs'.head?.map (·.byte)) : BraceFirst cs' := by
  obtain ⟨d, head, brace⟩ := h
  rw [head] at same
  cases head' : cs'.head? with
  | none =>
    rw [head'] at same
    cases same
  | some d' =>
    rw [head'] at same
    have bytes : d.byte = d'.byte := Option.some.inj same
    exact ⟨d', head', bytes ▸ brace⟩

theorem TextFirst.congr {cs cs' : List Cell} (h : TextFirst cs)
    (same : cs.head?.map (·.byte) = cs'.head?.map (·.byte)) : TextFirst cs' := by
  obtain ⟨d, head, text⟩ := h
  rw [head] at same
  cases head' : cs'.head? with
  | none =>
    rw [head'] at same
    cases same
  | some d' =>
    rw [head'] at same
    have bytes : d.byte = d'.byte := Option.some.inj same
    exact ⟨d', head', bytes ▸ text⟩

theorem TextFirst.not_braceFirst {cs : List Cell} (h : TextFirst cs) : ¬BraceFirst cs := by
  obtain ⟨d, head, text⟩ := h
  rintro ⟨d', head', brace⟩
  cases head.symm.trans head'
  exact text brace

theorem regular_of_marks {cs : List Cell} (h : ∀ c ∈ cs, c.escaped = true → IsBrace c.byte) : Regular cs := by
  induction cs with
  | nil => trivial
  | cons c cs ih =>
    obtain ⟨hc, h⟩ := List.forall_mem_cons.mp h
    exact ⟨hc, .inl (ih h)⟩

theorem marks_cells (bs : List UInt8) : ∀ c ∈ cells bs, c.escaped = true → IsBrace c.byte := by
  induction bs using cells.induct with
  | case1 a b rest h ih =>
    rw [cells, if_pos h]
    exact List.forall_mem_cons.mpr ⟨fun _ => h.1, ih⟩
  | case2 a b rest h ih =>
    rw [cells, if_neg h]
    exact List.forall_mem_cons.mpr ⟨by simp, ih⟩
  | case3 a => simp [cells]
  | case4 => simp [cells]

namespace Regular

theorem drop {lit cs : List Cell} (h : Regular (lit ++ cs)) (open_ : ∀ c ∈ lit, c.closes = false) : Regular cs := by
  induction lit with
  | nil => exact h
  | cons c lit ih =>
    obtain ⟨hc, open_⟩ := List.forall_mem_cons.mp open_
    rcases h.2 with h | ⟨closes, -⟩
    · exact ih h open_
    · simp [hc] at closes

theorem marks {lit cs : List Cell} (h : Regular (lit ++ cs)) (hlit : Literal lit) :
    ∀ c ∈ lit, c.escaped = true → IsBrace c.byte := by
  induction lit with
  | nil => nofun
  | cons c lit ih =>
    obtain ⟨leads, hlit⟩ := literal_cons_iff.mp hlit
    refine List.forall_mem_cons.mpr ⟨h.1, ?_⟩
    rcases h.2 with h | ⟨closes, -⟩
    · exact ih h hlit
    · simp [(leads_iff.mp leads).2] at closes

theorem drop_braces {name cs : List Cell} (h : Regular (Raw.cells (.braces name) ++ cs))
    (open_ : ∀ c ∈ name, c.closes = false) : Regular cs ∨ BraceFirst cs := by
  have opening : (⟨openBrace, false⟩ : Cell).closes = false := by decide
  have split : Raw.cells (.braces name) ++ cs = (⟨openBrace, false⟩ :: name) ++ ⟨closeBrace, false⟩ :: cs := by
    simp [Raw.cells]
  rw [split] at h
  have closing := h.drop (List.forall_mem_cons.mpr ⟨opening, open_⟩)
  exact closing.2.imp_right And.right

theorem braceFirst {cs : List Cell} {c : Cell} (h : Regular cs) (head : cs.head? = some c) (marked : c.escaped = true) :
    BraceFirst cs := by
  obtain ⟨cs, rfl⟩ := List.head?_eq_some_iff.mp head
  exact ⟨c, head, h.1 marked⟩

/-- The end of a route may be changed where it stays regular and begins with the same byte. -/
theorem change {before cs cs' : List Cell} (h : Regular (before ++ cs)) (regular : Regular cs → Regular cs')
    (first : cs.head?.map (·.byte) = cs'.head?.map (·.byte)) : Regular (before ++ cs') := by
  induction before with
  | nil => exact regular h
  | cons c before ih =>
    refine ⟨h.1, h.2.imp ih ?_⟩
    rintro ⟨closes, brace⟩
    refine ⟨closes, ?_⟩
    cases before with
    | cons e before => exact brace
    | nil => exact BraceFirst.congr brace first

end Regular

theorem letter_open {k : Nat} (h : k < mostParameters) : ∀ c ∈ [(⟨letter k, false⟩ : Cell)], c.closes = false := by
  intro c hc
  rw [List.mem_singleton.mp hc]
  simp [Cell.closes, (letter_ne h).2.2.2]

theorem regular_parameter {k : Nat} {cs : List Cell} (h : Regular cs ∨ BraceFirst cs) :
    Regular (parameterLabel k ++ cs) := by
  refine ⟨nofun, .inl ⟨nofun, .inl ⟨nofun, h.imp_right fun brace => ⟨by decide, brace⟩⟩⟩⟩

/-! ## Renaming -/

theorem modify_append (before after : List Cell) (n : Nat) (f : Cell → Cell) :
    (before ++ after).modify (before.length + n) f = before ++ after.modify n f := by
  induction before with
  | nil => rw [List.nil_append, List.nil_append, List.length_nil, Nat.zero_add]
  | cons c before ih =>
    rw [List.length_cons, Nat.add_right_comm, List.cons_append, List.modify_succ_cons, ih, List.cons_append]

/-- A parameter is replaced; what follows it keeps its bytes, and changes at all only if its first cell is marked. -/
theorem replaceCells_middle_any (before middle after : List Cell) (replacement : List UInt8)
    (shorter : replacement.length ≤ middle.length) :
    ∃ after', replaceCells (before ++ middle ++ after) before.length middle.length replacement =
        before ++ plain replacement ++ after' ∧ after'.length = after.length ∧
      after'.head?.map (·.byte) = after.head?.map (·.byte) ∧
      ((∃ c, after.head? = some c ∧ c.escaped = true) ∨ after' = after) := by
  by_cases marked : ∃ c, after.head? = some c ∧ c.escaped = true
  · obtain ⟨c, head, escaped⟩ := marked
    obtain ⟨after, rfl⟩ := List.head?_eq_some_iff.mp head
    have hdrop : (before ++ middle ++ c :: after).drop (before.length + middle.length) = c :: after :=
      List.drop_left' List.length_append
    have htake : (before ++ middle ++ c :: after).take before.length = before := by
      rw [List.append_assoc]
      exact List.take_left' rfl
    have behind : before.length + middle.length =
        (before ++ plain replacement).length + (middle.length - replacement.length) := by
      rw [List.length_append, plain_length]
      omega
    refine ⟨(({ c with escaped := false } :: after).modify (middle.length - replacement.length)
      ({ · with escaped := true })), ?_, by simp, ?_, .inl ⟨c, rfl, escaped⟩⟩
    · simp only [replaceCells, hdrop, htake, List.head?_cons, Option.map_some, Option.getD_some, escaped, if_true,
        List.modifyHead_cons]
      rw [behind]
      exact modify_append (before ++ plain replacement) _ _ _
    · cases middle.length - replacement.length <;> simp [List.modify]
  · refine ⟨after, replaceCells_middle before middle after replacement ?_, rfl, rfl, .inr rfl⟩
    intro c hc
    cases escaped : c.escaped with
    | false => rfl
    | true => exact absurd ⟨c, hc, escaped⟩ marked

/-- A name in braces that is found behind literal text, and that begins with a star. -/
theorem starLabel_of_found {lit name after : List Cell} (hlit : Literal lit) (proper : ProperName name)
    (rest : Raw.isRest name = true) {count : Nat}
    (found : findParameter (lit ++ (Raw.cells (.braces name) ++ after)) = .ok (some (lit.length, count))) :
    StarLabel (Raw.cells (.braces name)) := by
  refine ⟨name, rfl, proper, rest, ?_⟩
  have hcells : (Raw.cells (.braces name)).length = name.length + 2 := by simp [Raw.cells]
  rw [hcells]
  rcases findParameter_braces proper.open_ with fault | fine
  · rw [findParameter_literal hlit, fault] at found
    cases found
  · exact fine

/-- One step of the renaming: behind literal text, a catch-all is passed over and a parameter is replaced. -/
theorem normalizeFrom_step (fuel : Nat) (before : List Cell) {lit name : List Cell} (after : List Cell)
    (names : Names)
    (found : findParameter (lit ++ (Raw.cells (.braces name) ++ after)) = .ok (some (lit.length, name.length + 2))) :
    normalizeFrom (fuel + 1) before.length names (before ++ (lit ++ (Raw.cells (.braces name) ++ after))) =
      if Raw.isRest name = true then
        normalizeFrom fuel (before ++ lit ++ Raw.cells (.braces name)).length names
          (before ++ lit ++ Raw.cells (.braces name) ++ after)
      else if mostParameters ≤ names.length then .error .tooMany
      else normalizeFrom fuel (before ++ lit ++ parameterLabel names.length).length (names ++ [bytes name])
        (replaceCells (before ++ lit ++ Raw.cells (.braces name) ++ after) (before ++ lit).length
          (Raw.cells (.braces name)).length [openBrace, letter names.length, closeBrace]) := by
  have hdrop : (before ++ (lit ++ (Raw.cells (.braces name) ++ after))).drop before.length =
      lit ++ (Raw.cells (.braces name) ++ after) := List.drop_left' rfl
  have hcells : (Raw.cells (.braces name)).length = name.length + 2 := by simp [Raw.cells]
  have hall : before ++ (lit ++ (Raw.cells (.braces name) ++ after)) =
      before ++ lit ++ Raw.cells (.braces name) ++ after := by simp
  have hinside : ((before ++ (lit ++ (Raw.cells (.braces name) ++ after))).drop
      (before.length + lit.length + 1)).take name.length = name := by
    rw [← List.append_assoc, ← List.drop_drop, List.drop_left' List.length_append]
    simp [Raw.cells]
  have hend : before.length + lit.length + (name.length + 2) =
      (before ++ lit ++ Raw.cells (.braces name)).length := by
    rw [List.length_append, List.length_append, hcells]
  have hend' : before.length + lit.length + 3 = (before ++ lit ++ parameterLabel names.length).length := by
    rw [List.length_append, List.length_append]
    rfl
  have hplace : before.length + lit.length = (before ++ lit).length := List.length_append.symm
  simp only [normalizeFrom, hdrop, found, Nat.add_sub_cancel, hinside, hend, hend']
  rw [hall, hplace, ← hcells]
  simp only [Raw.isRest, decide_eq_true_eq]

/-- The renaming of a route from some place on leaves everything before it, and what it makes of the rest is written
and as regular as it was. -/
theorem normalizeFrom_written {fuel : Nat} {before cs : List Cell} {names names' : Names} {out : List Cell}
    (hfuel : cs.length < fuel) (regular : Regular (before ++ cs))
    (h : normalizeFrom fuel before.length names (before ++ cs) = .ok (out, names')) :
    ∃ new ts, out = before ++ new ∧ Written new ts ∧ Regular (before ++ new) := by
  induction fuel generalizing before cs names with
  | zero => omega
  | succ fuel ih =>
    cases found : findParameter cs with
    | error e =>
      simp only [normalizeFrom, List.drop_left', found] at h
      cases h
    | ok place =>
      cases place with
      | none =>
        simp only [normalizeFrom, List.drop_left', found] at h
        cases h
        exact ⟨cs, _, rfl, .literal (findParameter_eq_none found), regular⟩
      | some place =>
        obtain ⟨start, count⟩ := place
        obtain ⟨lit, name, after, rfl, hlit, rfl, rfl, proper⟩ := findParameter_eq_some found
        have hcells : (Raw.cells (.braces name)).length = name.length + 2 := by simp [Raw.cells]
        have hall : before ++ (lit ++ (Raw.cells (.braces name) ++ after)) =
            before ++ lit ++ Raw.cells (.braces name) ++ after := by simp
        simp only [List.length_append, hcells] at hfuel
        rw [normalizeFrom_step fuel before after names found] at h
        rw [hall] at regular
        by_cases rest : Raw.isRest name = true
        · rw [if_pos rest] at h
          obtain ⟨new, ts, rfl, written, regular⟩ := ih (by omega) regular h
          exact ⟨lit ++ (Raw.cells (.braces name) ++ new), _, by simp,
            (Written.literal hlit).append (.rest (starLabel_of_found hlit proper rest found) written),
            by simpa using regular⟩
        · rw [if_neg rest] at h
          by_cases most : mostParameters ≤ names.length
          · rw [if_pos most] at h
            cases h
          obtain ⟨after', replaced, length, first, same⟩ := replaceCells_middle_any (before ++ lit)
            (Raw.cells (.braces name)) after [openBrace, letter names.length, closeBrace] (by
              have := List.length_pos_iff.mpr proper.notNil
              rw [hcells]
              simp only [List.length_cons, List.length_nil]
              omega)
          have hlabel : plain [openBrace, letter names.length, closeBrace] = parameterLabel names.length := rfl
          rw [if_neg most, replaced, hlabel] at h
          have regular' : Regular (before ++ lit ++ parameterLabel names.length ++ after') := by
            rw [List.append_assoc _ _ after] at regular
            rw [List.append_assoc _ _ after']
            refine regular.change (fun inner => regular_parameter ?_) rfl
            rcases inner.drop_braces proper.open_ with behind | brace
            · rcases same with ⟨c, head, marked⟩ | rfl
              · exact .inr (BraceFirst.congr (behind.braceFirst head marked) first.symm)
              · exact .inl behind
            · exact .inr (brace.congr first.symm)
          obtain ⟨new, ts, rfl, written, regular⟩ := ih (by omega) regular' h
          exact ⟨lit ++ (parameterLabel names.length ++ new), _, by simp,
            (Written.literal hlit).append (.parameter _ (by omega) written), by simpa using regular⟩

/-- A route that is renamed is written and regular. -/
theorem normalize_written {path : List UInt8} {out : List Cell} {names : Names}
    (h : normalize (cells path) = .ok (out, names)) : (∃ ts, Written out ts) ∧ Regular out := by
  have whole : normalizeFrom ((cells path).length + 1) ([] : List Cell).length [] ([] ++ cells path) =
      .ok (out, names) := h
  obtain ⟨new, ts, rfl, written, regular⟩ := normalizeFrom_written (Nat.lt_succ_self _)
    (regular_of_marks (marks_cells path)) whole
  exact ⟨⟨ts, written⟩, regular⟩

end JsonService.Route
