import JsonService.Route.Tree

/-!
# Tokens of routes

A route whose parameters fill their segments is a list of tokens: bytes, parameters, and catch-alls. The trees
hold cells, in which a parameter is written with the letter of its place (`write`). Here is what the functions
on cells see of a written route.

**Results.**
* `findParameter_plain`, `findParameter_parameter`: the first parameter of a written route is its first token
  that is no byte.
* `commonLength_write`: what a written route has in common with some literal text is what its bytes have.
* `segmentLength_parameter`, `segmentLength_slash`: a parameter fills its segment.
-/
namespace JsonService.Route

inductive Token where
  | byte (b : UInt8)
  /-- Any text of one segment. -/
  | parameter
  /-- Any rest of a path, and how that is written. -/
  | rest (label : List Cell)
  deriving DecidableEq

/-- The tokens of a literal text. -/
def literal (bs : List UInt8) : List Token := bs.map .byte

/-- The cells of a literal text without braces. -/
def plain (bs : List UInt8) : List Cell := bs.map (⟨·, false⟩)

def Braceless (bs : List UInt8) : Prop := ∀ b ∈ bs, b ≠ openBrace ∧ b ≠ closeBrace

/-- How the parameter is written that comes after `k` others. -/
def parameterLabel (k : Nat) : List Cell := [⟨openBrace, false⟩, ⟨letter k, false⟩, ⟨closeBrace, false⟩]

/-- How a catch-all may be written. -/
structure RestLabel (label : List Cell) : Prop where
  opens : label.head? = some ⟨openBrace, false⟩
  star : (bytes label)[1]? = some star
  found : ∀ more, findParameter (label ++ more) = .ok (some (0, label.length))

/-- A route as it is written after `k` parameters. -/
def write : Nat → List Token → List Cell
  | _, [] => []
  | k, .byte b :: ts => ⟨b, false⟩ :: write k ts
  | k, .parameter :: ts => parameterLabel k ++ write (k + 1) ts
  | k, .rest label :: ts => label ++ write k ts

/-- A text that may follow a parameter: none, or one that starts a segment. -/
def StartsSegment (ts : List Token) : Prop := ts = [] ∨ ts.head? = some (.byte slash)

/-- A route whose parameters fill their segments, after `k` parameters. -/
def Proper : Nat → List Token → Prop
  | _, [] => True
  | k, .byte b :: ts => (b ≠ openBrace ∧ b ≠ closeBrace) ∧ Proper k ts
  | k, .parameter :: ts => k < mostParameters ∧ StartsSegment ts ∧ Proper (k + 1) ts
  | k, .rest label :: ts => RestLabel label ∧ Proper k ts

/-! ## Literal text -/

@[simp] theorem literal_nil : literal [] = [] := rfl

@[simp] theorem literal_cons (b : UInt8) (bs : List UInt8) : literal (b :: bs) = .byte b :: literal bs := rfl

@[simp] theorem plain_nil : plain [] = [] := rfl

@[simp] theorem plain_cons (b : UInt8) (bs : List UInt8) : plain (b :: bs) = ⟨b, false⟩ :: plain bs := rfl

@[simp] theorem plain_length (bs : List UInt8) : (plain bs).length = bs.length := List.length_map _

@[simp] theorem bytes_plain (bs : List UInt8) : bytes (plain bs) = bs := by
  simp [bytes, plain, Function.comp_def]

theorem plain_take (n : Nat) (bs : List UInt8) : (plain bs).take n = plain (bs.take n) := List.map_take.symm

theorem plain_drop (n : Nat) (bs : List UInt8) : (plain bs).drop n = plain (bs.drop n) := List.map_drop.symm

theorem literal_append (bs bs' : List UInt8) : literal (bs ++ bs') = literal bs ++ literal bs' := List.map_append

theorem braceless_cons {b : UInt8} {bs : List UInt8} :
    Braceless (b :: bs) ↔ (b ≠ openBrace ∧ b ≠ closeBrace) ∧ Braceless bs :=
  List.forall_mem_cons

theorem write_literal (k : Nat) (bs : List UInt8) (ts : List Token) :
    write k (literal bs ++ ts) = plain bs ++ write k ts := by
  induction bs with
  | nil => rfl
  | cons b bs ih => simp [write, ih]

theorem proper_literal {k : Nat} {bs : List UInt8} {ts : List Token} :
    Proper k (literal bs ++ ts) ↔ Braceless bs ∧ Proper k ts := by
  induction bs with
  | nil => simp [Braceless]
  | cons b bs ih => simp [Proper, ih, braceless_cons, and_assoc]

theorem write_ne_nil {k : Nat} {ts : List Token} (hp : Proper k ts) (h : ts ≠ []) : write k ts ≠ [] := by
  cases ts with
  | nil => exact absurd rfl h
  | cons t ts =>
    cases t with
    | byte b => exact List.cons_ne_nil _ _
    | parameter => exact List.cons_ne_nil _ _
    | rest label =>
      have opens := hp.1.opens
      cases label with
      | nil => simp at opens
      | cons c label => exact List.cons_ne_nil _ _

theorem write_brace {k : Nat} {ts : List Token} (hp : Proper k ts) (hne : ts ≠ [])
    (hbyte : ∀ b more, ts ≠ .byte b :: more) : ∃ cs, write k ts = ⟨openBrace, false⟩ :: cs := by
  match ts with
  | [] => exact absurd rfl hne
  | .byte b :: more => exact absurd rfl (hbyte b more)
  | .parameter :: more => exact ⟨_, rfl⟩
  | .rest label :: more =>
    obtain ⟨cs, rfl⟩ : ∃ cs, label = ⟨openBrace, false⟩ :: cs := List.head?_eq_some_iff.mp hp.1.opens
    exact ⟨_, rfl⟩

/-! ## Letters -/

theorem letter_ne {k : Nat} (h : k < mostParameters) :
    letter k ≠ slash ∧ letter k ≠ star ∧ letter k ≠ openBrace ∧ letter k ≠ closeBrace := by
  have all : ∀ i : Fin 25, letter i ≠ slash ∧ letter i ≠ star ∧ letter i ≠ openBrace ∧ letter i ≠ closeBrace := by
    decide
  exact all ⟨k, h⟩

/-! ## Finding the first parameter -/

theorem findParameter_plain {bs : List UInt8} (hb : Braceless bs) (cs : List Cell) :
    findParameter (plain bs ++ cs) = (findParameter cs).map (·.map fun (start, n) => (start + bs.length, n)) := by
  induction bs with
  | nil =>
    simp only [plain_nil, List.nil_append, List.length_nil]
    rcases findParameter cs with e | _ | ⟨start, n⟩ <;> rfl
  | cons b bs ih =>
    obtain ⟨⟨ho, hc⟩, hbs⟩ := braceless_cons.mp hb
    simp only [plain_cons, List.cons_append, findParameter, Cell.closes, Cell.opens, ho, hc, ih hbs]
    rcases findParameter cs with e | _ | ⟨start, n⟩
    · rfl
    · rfl
    · simp only [Except.map, Option.map, List.length_cons, Nat.add_assoc]
      simp

theorem findParameter_parameter {k : Nat} (h : k < mostParameters) (cs : List Cell) :
    findParameter (parameterLabel k ++ cs) = .ok (some (0, 3)) := by
  obtain ⟨-, hstar, -, hclose⟩ := letter_ne h
  have hname : parameterLength (⟨letter k, false⟩ :: ⟨closeBrace, false⟩ :: cs) = .ok 3 := by
    simp [parameterLength, parameterEnd, Cell.closes, hclose, hstar, Except.map]
  simp only [parameterLabel, List.cons_append, List.nil_append, findParameter, hname]
  rfl

theorem exists_literal (ts : List Token) : ∃ bs tail, ts = literal bs ++ tail ∧
    ∀ b more, tail ≠ .byte b :: more := by
  induction ts with
  | nil => exact ⟨[], [], rfl, nofun⟩
  | cons t ts ih =>
    cases t with
    | byte b =>
      obtain ⟨bs, tail, rfl, htail⟩ := ih
      exact ⟨b :: bs, tail, rfl, htail⟩
    | parameter => exact ⟨[], .parameter :: ts, rfl, nofun⟩
    | rest label => exact ⟨[], .rest label :: ts, rfl, nofun⟩

/-! ## Segments -/

theorem segmentLength_parameter {k : Nat} (h : k < mostParameters) :
    segmentLength (parameterLabel k) = 3 := by
  obtain ⟨hslash, -⟩ := letter_ne h
  simp [segmentLength, parameterLabel, hslash, show openBrace ≠ slash by decide, show closeBrace ≠ slash by decide]

theorem segmentLength_parameter_slash {k : Nat} (h : k < mostParameters) (cs : List Cell) :
    segmentLength (parameterLabel k ++ ⟨slash, false⟩ :: cs) = 4 := by
  obtain ⟨hslash, -⟩ := letter_ne h
  simp [segmentLength, parameterLabel, hslash, show openBrace ≠ slash by decide, show closeBrace ≠ slash by decide]

theorem segmentLength_slash (cs : List Cell) : segmentLength (⟨slash, false⟩ :: cs) = 1 := by
  simp [segmentLength]

theorem holdsParameter_slash : holdsParameter [⟨slash, false⟩] = false := by decide

/-! ## What a route has in common with a text -/

theorem commonLength_le (as bs : List Cell) : commonLength as bs ≤ bs.length := by
  induction as generalizing bs with
  | nil => simp [commonLength]
  | cons a as ih =>
    cases bs with
    | nil => simp [commonLength]
    | cons b bs =>
      rw [commonLength]
      split
      · have := ih bs
        simp only [List.length_cons]
        omega
      · omega

/-- A token that is no byte starts with a brace, and has nothing in common with a text that has none. -/
theorem commonLength_brace {bs : List UInt8} (hb : Braceless bs) (cs : List Cell) :
    commonLength (⟨openBrace, false⟩ :: cs) (plain bs) = 0 := by
  cases bs with
  | nil => rfl
  | cons b bs =>
    have hne : ¬ (⟨openBrace, false⟩ : Cell) = ⟨b, false⟩ := by
      intro hex
      cases hex
      exact (hb _ List.mem_cons_self).1 rfl
    simp [commonLength, hne]

/-- What a written route has in common with a literal text is what its bytes have in common with it. -/
theorem commonLength_write {k : Nat} {ts : List Token} (hp : Proper k ts) {bs : List UInt8}
    (hb : Braceless bs) : ∃ tail, ts = literal (bs.take (commonLength (write k ts) (plain bs))) ++ tail ∧
      (write k ts).drop (commonLength (write k ts) (plain bs)) = write k tail ∧
      ∀ b, bs[commonLength (write k ts) (plain bs)]? = some b → tail.head? ≠ some (.byte b) := by
  induction ts generalizing bs with
  | nil => exact ⟨[], by simp [write, commonLength], by simp [write], by simp⟩
  | cons t ts ih =>
    cases t with
    | parameter =>
      have hzero : commonLength (write k (.parameter :: ts)) (plain bs) = 0 := commonLength_brace hb _
      rw [hzero]
      exact ⟨.parameter :: ts, rfl, rfl, by simp⟩
    | rest label =>
      obtain ⟨cs, rfl⟩ : ∃ cs, label = ⟨openBrace, false⟩ :: cs := List.head?_eq_some_iff.mp hp.1.opens
      have hzero : commonLength (write k (.rest (⟨openBrace, false⟩ :: cs) :: ts)) (plain bs) = 0 :=
        commonLength_brace hb _
      rw [hzero]
      exact ⟨.rest (⟨openBrace, false⟩ :: cs) :: ts, rfl, rfl, by simp⟩
    | byte a =>
      cases bs with
      | nil => exact ⟨.byte a :: ts, by simp [write, commonLength], by simp [write, commonLength], by simp⟩
      | cons b bs =>
        obtain ⟨-, hbs⟩ := braceless_cons.mp hb
        by_cases hab : a = b
        · subst hab
          obtain ⟨tail, hts, hdrop, hhead⟩ := ih hp.2 hbs
          refine ⟨tail, ?_, ?_, ?_⟩
          · simp [write, commonLength, ← hts]
          · simpa [write, commonLength] using hdrop
          · simpa [write, commonLength] using hhead
        · have hne : ¬ (⟨a, false⟩ : Cell) = ⟨b, false⟩ := fun h => hab (congrArg Cell.byte h)
          refine ⟨.byte a :: ts, ?_, ?_, ?_⟩
          · simp [write, commonLength, hne]
          · simp [write, commonLength, hne]
          · simp [write, commonLength, hne, hab]

end JsonService.Route
