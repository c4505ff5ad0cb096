import JsonService.Proofs.Route.Tokens

/-!
# Normal routes

Before a route gets into a tree, its parameters are renamed after their places. Here a route is a list of bytes
and of names in braces, of which each fills a segment (`Whole`), and renaming turns it into tokens.

**Results.**
* `normalizeFrom_spell`: renaming a route whose parameters fill their segments fails, or writes its tokens and
  keeps the names of its parameters.
* `cells_append`, `cells_append_slash`: text without braces and slashes keep the cells around them apart.
* `cells_braces`: the cells of a name in braces.
-/
namespace JsonService.Route

/-- A piece of a route as it is spelled. -/
inductive Raw where
  | byte (b : UInt8)
  | braces (name : List Cell)

namespace Raw

def cells : Raw → List Cell
  | byte b => [⟨b, false⟩]
  | braces name => ⟨openBrace, false⟩ :: name ++ [⟨closeBrace, false⟩]

/-- Whether a name in braces is that of a catch-all. -/
def isRest (name : List Cell) : Bool := (bytes name).head? = some star

def token : Raw → Token
  | byte b => .byte b
  | braces name => if isRest name then .rest (cells (.braces name)) else .parameter

def name? : Raw → Option (List UInt8)
  | byte _ => none
  | braces name => if isRest name then none else some (bytes name)

end Raw

def spell (rs : List Raw) : List Cell := rs.flatMap Raw.cells

def rawNames (rs : List Raw) : Names := rs.filterMap Raw.name?

/-- A route whose parameters fill their segments and whose literal text has no braces. -/
def Whole : List Raw → Prop
  | [] => True
  | .byte b :: rs => (b ≠ openBrace ∧ b ≠ closeBrace) ∧ Whole rs
  | .braces name :: rs =>
    (∀ c ∈ name, c.closes = false) ∧ (rs = [] ∨ rs.head? = some (.byte slash)) ∧ Whole rs

theorem rawNames_byte (b : UInt8) (rs : List Raw) : rawNames (.byte b :: rs) = rawNames rs :=
  List.filterMap_cons_none rfl

/-! ## The cells of a path -/

theorem cells_cons {a : UInt8} (ha : a ≠ openBrace ∧ a ≠ closeBrace) (bs : List UInt8) :
    cells (a :: bs) = ⟨a, false⟩ :: cells bs := by
  cases bs with
  | nil => rfl
  | cons b bs =>
    have hne : ¬ ((a = openBrace ∨ a = closeBrace) ∧ a = b) := by
      intro hex
      rcases hex with ⟨h | h, -⟩
      · exact ha.1 h
      · exact ha.2 h
    rw [cells, if_neg hne]

theorem cells_slash (bs : List UInt8) : cells (slash :: bs) = ⟨slash, false⟩ :: cells bs :=
  cells_cons (by decide) bs

theorem cells_append_slash (as bs : List UInt8) :
    cells (as ++ slash :: bs) = cells as ++ ⟨slash, false⟩ :: cells bs := by
  induction as using cells.induct with
  | case1 a b rest h ih =>
    rw [List.cons_append, List.cons_append, cells, cells, if_pos h, if_pos h, ih, List.cons_append]
  | case2 a b rest h ih =>
    rw [List.cons_append] at ih
    rw [List.cons_append, List.cons_append, cells, cells, if_neg h, if_neg h, ih, List.cons_append]
  | case3 a =>
    have hne : ¬ ((a = openBrace ∨ a = closeBrace) ∧ a = slash) := by
      intro hex
      obtain ⟨ha, rfl⟩ := hex
      exact absurd ha (by decide)
    rw [List.singleton_append, cells, if_neg hne, cells_slash]
    rfl
  | case4 => rw [List.nil_append, cells_slash, cells, List.nil_append]

theorem cells_append {bs : List UInt8} (hb : Braceless bs) (more : List UInt8) :
    cells (bs ++ more) = plain bs ++ cells more := by
  induction bs with
  | nil => rfl
  | cons a bs ih =>
    obtain ⟨ha, hbs⟩ := braceless_cons.mp hb
    rw [List.cons_append, cells_cons ha, ih hbs, plain_cons, List.cons_append]

theorem cells_braceless {bs : List UInt8} (hb : Braceless bs) : cells bs = plain bs := by
  have h := cells_append hb []
  rwa [List.append_nil, cells, List.append_nil] at h

theorem cells_braces {bs : List UInt8} (hb : Braceless bs) :
    cells (openBrace :: bs ++ [closeBrace]) = Raw.cells (.braces (plain bs)) := by
  cases bs with
  | nil => rfl
  | cons b bs =>
    have hne : ¬ ((openBrace = openBrace ∨ openBrace = closeBrace) ∧ openBrace = b) := by
      intro hex
      obtain ⟨-, rfl⟩ := hex
      exact (braceless_cons.mp hb).1.1 rfl
    have hrest : cells (b :: (bs ++ [closeBrace])) = plain (b :: bs) ++ [⟨closeBrace, false⟩] :=
      cells_append hb [closeBrace]
    rw [List.cons_append, List.cons_append, cells, if_neg hne, hrest, Raw.cells, List.cons_append]

/-! ## Names in braces -/

/-- Whether a name is proper does not depend on what follows its closing brace. -/
theorem parameterEnd_closed {name : List Cell} (hname : ∀ c ∈ name, c.closes = false) (last : UInt8) :
    ∃ r, (∀ more, parameterEnd last (name ++ ⟨closeBrace, false⟩ :: more) = r) ∧
      (r = .error .parameter ∨ r = .ok (name.length + 1)) := by
  induction name generalizing last with
  | nil =>
    refine ⟨if last = star then .error .parameter else .ok 1, fun more => rfl, ?_⟩
    split
    · exact Or.inl rfl
    · exact Or.inr rfl
  | cons c name ih =>
    obtain ⟨hc, hname⟩ := List.forall_mem_cons.mp hname
    obtain ⟨r, hr, hcases⟩ := ih hname c.byte
    refine ⟨if c.byte = star ∨ c.byte = slash then .error .parameter else r.map (· + 1), ?_, ?_⟩
    · intro more
      rw [List.cons_append, parameterEnd, hc, hr]
      rfl
    · split
      · exact Or.inl rfl
      · rcases hcases with rfl | rfl
        · exact Or.inl rfl
        · exact Or.inr rfl

/-- A name in braces is a fault, or a parameter up to its closing brace. -/
theorem findParameter_braces {name : List Cell} (hname : ∀ c ∈ name, c.closes = false) :
    (∀ more, findParameter (Raw.cells (.braces name) ++ more) = .error .parameter) ∨
      ∀ more, findParameter (Raw.cells (.braces name) ++ more) = .ok (some (0, name.length + 2)) := by
  have hfind : ∀ more, findParameter (Raw.cells (.braces name) ++ more) =
      (parameterLength (name ++ ⟨closeBrace, false⟩ :: more)).map fun n => some (0, n) := by
    intro more
    simp only [Raw.cells, List.cons_append, List.append_assoc, findParameter]
    rfl
  cases name with
  | nil =>
    left
    intro more
    rw [hfind]
    rfl
  | cons c name =>
    obtain ⟨-, hname⟩ := List.forall_mem_cons.mp hname
    obtain ⟨r, hr, hcases⟩ := parameterEnd_closed hname c.byte
    by_cases hclose : c.byte = closeBrace
    · left
      intro more
      rw [hfind, List.cons_append, parameterLength, if_pos hclose]
      rfl
    · rcases hcases with rfl | rfl
      · left
        intro more
        rw [hfind, List.cons_append, parameterLength, if_neg hclose, hr]
        rfl
      · right
        intro more
        rw [hfind, List.cons_append, parameterLength, if_neg hclose, hr]
        rfl

/-! ## Renaming -/

theorem normalizeFrom_byte {c : Cell} (hb : Braceless [c.byte]) (hc : c.escaped = false) (fuel : Nat)
    (done : List Cell) (names : Names) (cs : List Cell) :
    normalizeFrom fuel done.length names (done ++ c :: cs) =
      normalizeFrom fuel (done ++ [c]).length names (done ++ c :: cs) := by
  cases fuel with
  | zero => rfl
  | succ fuel =>
    obtain ⟨b, escaped⟩ := c
    subst hc
    have hfind := findParameter_plain hb cs
    have hdrop : (done ++ (⟨b, false⟩ : Cell) :: cs).drop done.length = ⟨b, false⟩ :: cs := List.drop_left' rfl
    have hdrop' : (done ++ (⟨b, false⟩ : Cell) :: cs).drop (done ++ [(⟨b, false⟩ : Cell)]).length = cs := by
      rw [List.append_cons done (⟨b, false⟩ : Cell) cs]
      exact List.drop_left' rfl
    simp only [plain_cons, plain_nil, List.cons_append, List.nil_append] at hfind
    simp only [normalizeFrom, hdrop, hdrop', hfind]
    rcases findParameter cs with e | _ | ⟨start, count⟩
    · rfl
    · rfl
    · have hplace : done.length + (start + 1) = (done ++ [(⟨b, false⟩ : Cell)]).length + start := by
        rw [List.length_append, List.length_singleton]
        omega
      simp only [Except.map, Option.map, List.length_singleton, hplace]

theorem replaceCells_middle (before middle after : List Cell) (replacement : List UInt8)
    (hafter : ∀ c ∈ after.head?, c.escaped = false) :
    replaceCells (before ++ middle ++ after) before.length middle.length replacement =
      before ++ plain replacement ++ after := by
  have hdrop : (before ++ middle ++ after).drop (before.length + middle.length) = after :=
    List.drop_left' List.length_append
  have htake : (before ++ middle ++ after).take before.length = before := by
    rw [List.append_assoc]
    exact List.take_left' rfl
  unfold replaceCells
  simp only [hdrop, htake]
  cases after with
  | nil => simp [plain]
  | cons c after =>
    obtain ⟨byte, escaped⟩ := c
    have hfalse : escaped = false := hafter ⟨byte, escaped⟩ rfl
    subst hfalse
    simp [plain]

theorem restLabel_cells {name : List Cell} (hrest : Raw.isRest name = true)
    (hfound : ∀ more, findParameter (Raw.cells (.braces name) ++ more) = .ok (some (0, name.length + 2))) :
    RestLabel (Raw.cells (.braces name)) where
  opens := rfl
  star := by
    cases name with
    | nil => simp [Raw.isRest, bytes] at hrest
    | cons c name =>
      have hc : c.byte = star := by simpa [Raw.isRest, bytes] using hrest
      simp [Raw.cells, bytes, hc]
  found more := by
    rw [hfound]
    simp [Raw.cells]

theorem spell_head {rs : List Raw} (h : rs = [] ∨ rs.head? = some (.byte slash)) :
    ∀ c ∈ (spell rs).head?, c.escaped = false := by
  rcases h with rfl | h
  · nofun
  · obtain ⟨rs, rfl⟩ := List.head?_eq_some_iff.mp h
    intro c hc
    cases hc
    rfl

/-- Renaming a route whose parameters fill their segments fails, or writes its tokens and keeps its names. -/
theorem normalizeFrom_spell {rs : List Raw} (hw : Whole rs) (fuel : Nat) (done : List Cell) (names : Names)
    (hfuel : (spell rs).length ≤ fuel) :
    (∃ fault, normalizeFrom fuel done.length names (done ++ spell rs) = .error fault) ∨
      (normalizeFrom fuel done.length names (done ++ spell rs) =
          .ok (done ++ write names.length (rs.map Raw.token), names ++ rawNames rs) ∧
        Proper names.length (rs.map Raw.token)) := by
  induction rs generalizing fuel done names with
  | nil =>
    right
    refine ⟨?_, trivial⟩
    cases fuel with
    | zero => simp [normalizeFrom, spell, rawNames, write]
    | succ fuel => simp [normalizeFrom, spell, rawNames, write, findParameter]
  | cons r rs ih =>
    cases r with
    | byte b =>
      obtain ⟨hb, hw⟩ := hw
      have hspell : spell (.byte b :: rs) = ⟨b, false⟩ :: spell rs := rfl
      rw [hspell, List.length_cons] at hfuel
      have hb' : Braceless [b] := braceless_cons.mpr ⟨hb, by simp [Braceless]⟩
      rw [hspell, normalizeFrom_byte hb' rfl, List.append_cons done (⟨b, false⟩ : Cell) (spell rs)]
      rcases ih hw fuel (done ++ [(⟨b, false⟩ : Cell)]) names (by omega) with hfault | ⟨hok, hproper⟩
      · exact Or.inl hfault
      · right
        refine ⟨?_, hb, hproper⟩
        rw [hok, rawNames_byte]
        simp [write, Raw.token]
    | braces name =>
      obtain ⟨hname, hsegment, hw⟩ := hw
      have hspell : spell (.braces name :: rs) = Raw.cells (.braces name) ++ spell rs := rfl
      have hcells : (Raw.cells (.braces name)).length = name.length + 2 := by simp [Raw.cells]
      rw [hspell, List.length_append, hcells] at hfuel
      obtain ⟨fuel, rfl⟩ : ∃ f, fuel = f + 1 := ⟨fuel - 1, by omega⟩
      have hdrop : (done ++ (Raw.cells (.braces name) ++ spell rs)).drop done.length =
          Raw.cells (.braces name) ++ spell rs := List.drop_left' rfl
      rw [hspell]
      rcases findParameter_braces hname with hfault | hfound
      · left
        exact ⟨.parameter, by simp only [normalizeFrom, hdrop, hfault]⟩
      have hinside : ((done ++ (Raw.cells (.braces name) ++ spell rs)).drop (done.length + 1)).take
          name.length = name := by
        rw [← List.drop_drop, hdrop]
        simp [Raw.cells]
      simp only [normalizeFrom, hdrop, hfound, Nat.add_zero, Nat.add_sub_cancel, hinside]
      by_cases hrest : Raw.isRest name = true
      · have hstar : (bytes name).head? = some star := by simpa [Raw.isRest] using hrest
        have hend : done.length + (name.length + 2) = (done ++ Raw.cells (.braces name)).length := by
          rw [List.length_append, hcells]
        rw [if_pos hstar, ← List.append_assoc, hend]
        rcases ih hw fuel (done ++ Raw.cells (.braces name)) names (by omega) with hfault | ⟨hok, hproper⟩
        · exact Or.inl hfault
        · right
          rw [hok]
          simp [write, Raw.token, rawNames, Raw.name?, hrest, Proper, hproper, restLabel_cells hrest hfound]
      · have hstar : ¬ (bytes name).head? = some star := by simpa [Raw.isRest] using hrest
        rw [if_neg hstar]
        by_cases hmost : mostParameters ≤ names.length
        · left
          exact ⟨.tooMany, if_pos hmost⟩
        rw [if_neg hmost, ← List.append_assoc, ← hcells, replaceCells_middle _ _ _ _ (spell_head hsegment)]
        have hlabel : plain [openBrace, letter names.length, closeBrace] = parameterLabel names.length := rfl
        have hend : done.length + 3 = (done ++ parameterLabel names.length).length := by
          rw [List.length_append]
          rfl
        have hcount : names.length + 1 = (names ++ [bytes name]).length := by
          rw [List.length_append, List.length_singleton]
        rw [hlabel, hend]
        rcases ih hw fuel (done ++ parameterLabel names.length) (names ++ [bytes name]) (by omega) with
          hfault | ⟨hok, hproper⟩
        · exact Or.inl hfault
        · right
          rw [← hcount] at hok hproper
          rw [hok]
          have hstarts : StartsSegment (rs.map Raw.token) := by
            rcases hsegment with rfl | hslash
            · exact Or.inl rfl
            · exact Or.inr (by rw [List.head?_map, hslash]; rfl)
          simp [write, Raw.token, rawNames, Raw.name?, hrest, Proper, hproper, hstarts]
          omega

end JsonService.Route
