import JsonService.Proofs.Route.Found
import JsonService.Proofs.Text.Symbols
import Mathlib.Data.List.Chain

/-!
# Patterns as they are read

A pattern is read from left to right: a doubled brace is a brace that stands for itself (`marked`), a name in single
braces is a parameter, one that begins with a star a catch-all, and everything else is text (`pieces`). Renaming the
parameters of a pattern goes by its cells; where no brace follows the name of a parameter (`Spaced`) it comes to the
same pieces.

**Results.**
* `cells_marked`: the cells of a pattern are those of its marked characters.
* `normalizeFrom_pieces`: a pattern that is renamed is read, and its tokens tell its pieces (`Tells`).
* `normalizeFrom_tooMany`: one that is refused for too many parameters has too many.
-/
namespace JsonService.Route

open Text.Utf8 (encode)

/-- The characters of a pattern, of which those are marked that were doubled to stand for themselves. -/
def marked : List Char → List (Char × Bool)
  | a :: b :: rest =>
    if (a = '\x7b' ∨ a = '\x7d') ∧ a = b then (a, true) :: marked rest else (a, false) :: marked (b :: rest)
  | [a] => [(a, false)]
  | [] => []

/-- A piece of a pattern. -/
inductive Piece where
  | text (c : Char)
  /-- Some text without a slash. -/
  | parameter (name : List Char)
  /-- Any rest of a path. -/
  | rest (name : List Char)
  deriving DecidableEq, Repr

namespace Piece

/-- What a name in braces stands for. -/
def named : List Char → Piece
  | '*' :: name => .rest name
  | name => .parameter name

def name? : Piece → Option (List Char)
  | text _ => none
  | parameter name => some name
  | rest name => some name

def parameter? : Piece → Option (List Char)
  | parameter name => some name
  | _ => none

end Piece

/-- The pieces of some characters, at first within the braces of `name` if that is some. -/
def pieces : Option (List Char) → List (Char × Bool) → Option (List Piece)
  | none, [] => some []
  | some _, [] => none
  | none, (c, mark) :: ms =>
    if c = '\x7b' ∧ !mark then pieces (some []) ms
    else if c = '\x7d' ∧ !mark then none
    else (pieces none ms).map (.text c :: ·)
  | some name, (c, mark) :: ms =>
    if c = '\x7d' ∧ !mark then (pieces none ms).map (Piece.named name :: ·)
    else pieces (some (name ++ [c])) ms

/-- No brace follows the name of a parameter. -/
def Spaced (ms : List (Char × Bool)) : Prop :=
  ms.IsChain fun a b => a = ('\x7d', false) → b.1 ≠ '\x7b' ∧ b.1 ≠ '\x7d'

instance (ms : List (Char × Bool)) : Decidable (Spaced ms) := inferInstanceAs (Decidable (List.IsChain _ _))

/-- Only braces are marked. -/
def BracesMarked (ms : List (Char × Bool)) : Prop := ∀ m ∈ ms, m.2 = true → m.1 = '\x7b' ∨ m.1 = '\x7d'

/-! ## Cells -/

def ink (m : Char × Bool) : List Cell := (String.utf8EncodeChar m.1).map (⟨·, m.2⟩)

theorem bytes_ink (ms : List (Char × Bool)) : bytes (ms.flatMap ink) = encode (ms.map Prod.fst) := by
  induction ms with
  | nil => rfl
  | cons m ms ih =>
    rw [bytes] at ih ⊢
    rw [List.flatMap_cons, List.map_append, ih, List.map_cons, Text.Utf8.encode_cons, ink, List.map_map]
    simp [Function.comp_def]

theorem ink_brace {c : Char} {b : UInt8} (hc : String.utf8EncodeChar c = [b]) (mark : Bool) :
    ink (c, mark) = [⟨b, mark⟩] := by
  rw [ink, hc]
  rfl

def braceByte (c : Char) : UInt8 := if c = '\x7b' then openBrace else closeBrace

theorem encode_brace {c : Char} (h : c = '\x7b' ∨ c = '\x7d') :
    String.utf8EncodeChar c = [braceByte c] ∧ IsBrace (braceByte c) ∧ braceByte c < 0x80 := by
  rcases h with rfl | rfl
  · exact ⟨encode_openBrace, .inl rfl, by decide⟩
  · exact ⟨encode_closeBrace, .inr rfl, by decide⟩

theorem cells_char {a : Char} {ds : List Char} (h : ¬((a = '\x7b' ∨ a = '\x7d') ∧ ds.head? = some a)) :
    cells (String.utf8EncodeChar a ++ encode ds) = ink (a, false) ++ cells (encode ds) := by
  by_cases brace : a = '\x7b' ∨ a = '\x7d'
  · obtain ⟨ha, -, hlow⟩ := encode_brace brace
    rw [ink_brace ha, ha]
    cases ds with
    | nil => rfl
    | cons d ds =>
      obtain ⟨b, bs, hbs⟩ := List.exists_cons_of_ne_nil (String.utf8EncodeChar_ne_nil (c := d))
      have other : ¬((braceByte a = openBrace ∨ braceByte a = closeBrace) ∧ braceByte a = b) := by
        rintro ⟨-, rfl⟩
        have first : (encode (d :: ds)).head? = some (braceByte a) := by rw [Text.Utf8.encode_cons, hbs]; rfl
        rw [(Text.Utf8.head_encode ha hlow ds).mp first] at h
        exact h ⟨brace, rfl⟩
      rw [Text.Utf8.encode_cons, hbs]
      simp only [List.cons_append, List.nil_append, cells]
      rw [if_neg other]
  · have braceless : Braceless (String.utf8EncodeChar a) := by
      have single : Braceless (encode [a]) := braceless_encode (by simpa [not_or] using brace)
      simpa [encode] using single
    exact cells_append braceless _

theorem bracesMarked_marked (cs : List Char) : BracesMarked (marked cs) := by
  induction cs using marked.induct with
  | case1 a b rest h ih =>
    rw [marked, if_pos h]
    exact List.forall_mem_cons.mpr ⟨fun _ => h.1, ih⟩
  | case2 a b rest h ih =>
    rw [marked, if_neg h]
    exact List.forall_mem_cons.mpr ⟨nofun, ih⟩
  | case3 a => simp [marked, BracesMarked]
  | case4 => simp [marked, BracesMarked]

theorem cells_marked (cs : List Char) : cells (encode cs) = (marked cs).flatMap ink := by
  induction cs using marked.induct with
  | case1 a b rest h ih =>
    obtain ⟨brace, rfl⟩ := h
    obtain ⟨ha, hbrace, -⟩ := encode_brace brace
    rw [marked, if_pos ⟨brace, rfl⟩, List.flatMap_cons, ink_brace ha, ← ih, Text.Utf8.encode_cons,
      Text.Utf8.encode_cons, ha]
    have doubled : (braceByte a = openBrace ∨ braceByte a = closeBrace) ∧ True := ⟨hbrace, trivial⟩
    simp only [List.cons_append, List.nil_append, cells, if_pos doubled]
  | case2 a b rest h ih =>
    rw [marked, if_neg h, List.flatMap_cons, ← ih, Text.Utf8.encode_cons]
    refine cells_char fun hex => h ⟨hex.1, ?_⟩
    exact (Option.some.inj hex.2).symm
  | case3 a =>
    have single : cells (String.utf8EncodeChar a ++ encode []) = ink (a, false) ++ cells (encode []) :=
      cells_char fun hex => by cases hex.2
    simpa [encode, marked, cells] using single
  | case4 => rfl

/-- Cells are cut at a brace that is not marked where its character stands. -/
theorem ink_eq_append {ms : List (Char × Bool)} {c : Char} (brace : c = '\x7b' ∨ c = '\x7d') {x y : List Cell}
    (h : ms.flatMap ink = x ++ ⟨braceByte c, false⟩ :: y) :
    ∃ as bs, ms = as ++ (c, false) :: bs ∧ x = as.flatMap ink ∧ y = bs.flatMap ink := by
  obtain ⟨hc, -, hlow⟩ := encode_brace brace
  induction ms generalizing x with
  | nil => simp at h
  | cons m ms ih =>
    rw [List.flatMap_cons] at h
    by_cases here : m = (c, false)
    · rw [here, ink_brace hc] at h
      cases x with
      | nil => exact ⟨[], ms, by rw [here]; rfl, rfl, (List.cons.inj h).2.symm⟩
      | cons d x =>
        obtain ⟨rfl, tail⟩ := List.cons.inj h
        obtain ⟨as, bs, rfl, rfl, rfl⟩ := ih tail
        exact ⟨(c, false) :: as, bs, by rw [here]; rfl, by rw [List.flatMap_cons, ink_brace hc]; rfl, rfl⟩
    · have absent : (⟨braceByte c, false⟩ : Cell) ∉ ink m := by
        intro mem
        obtain ⟨b, hb, heq⟩ := List.mem_map.mp mem
        obtain ⟨rfl, unmarked⟩ := Cell.mk.inj heq
        have single := Text.Utf8.utf8EncodeChar_of_mem hb hlow
        have same : encode [m.1] = encode [c] := by simp [encode, single, hc]
        exact here (Prod.ext (List.singleton_inj.mp (Text.Utf8.encode_injective same)) unmarked)
      rcases List.append_eq_append_iff.mp h with ⟨x', rfl, hms⟩ | ⟨inside, hm, hinside⟩
      · obtain ⟨as, bs, rfl, rfl, rfl⟩ := ih hms
        exact ⟨m :: as, bs, rfl, rfl, rfl⟩
      · cases inside with
        | nil =>
          obtain ⟨as, bs, rfl, nil, rfl⟩ := ih (x := []) hinside.symm
          rw [List.append_nil] at hm
          exact ⟨m :: as, bs, rfl, by rw [List.flatMap_cons, hm, ← nil, List.append_nil], rfl⟩
        | cons d inside =>
          obtain ⟨rfl, -⟩ := List.cons.inj hinside
          exact absurd (hm ▸ List.mem_append_right x List.mem_cons_self) absent

/-! ## Reading -/

theorem pieces_literal {as : List (Char × Bool)} (h : Literal (as.flatMap ink)) (ms : List (Char × Bool)) :
    pieces none (as ++ ms) = (pieces none ms).map ((as.map fun m => Piece.text m.1) ++ ·) := by
  induction as with
  | nil => simp
  | cons m as ih =>
    obtain ⟨c, mark⟩ := m
    rw [List.flatMap_cons] at h
    obtain ⟨first, h⟩ := literal_append_iff.mp h
    -- a brace that is not marked is no literal text
    have unmarked : ∀ d, (d = '\x7b' ∨ d = '\x7d') → ¬(c = d ∧ (!mark) = true) := by
      rintro d brace ⟨rfl, bare⟩
      obtain ⟨hc, hbrace, -⟩ := encode_brace brace
      rw [ink_brace hc] at first
      have leads := first _ (List.mem_singleton_self _)
      simp only [Bool.not_eq_true'] at bare
      rcases hbrace with hb | hb <;> simp [Cell.leads, bare, hb] at leads
    rw [List.cons_append, pieces, if_neg (unmarked _ (.inl rfl)), if_neg (unmarked _ (.inr rfl)), ih h, Option.map_map]
    rfl

theorem pieces_name {as : List (Char × Bool)} (h : ∀ c ∈ as.flatMap ink, c.closes = false) (name : List Char)
    (ms : List (Char × Bool)) : pieces (some name) (as ++ ('\x7d', false) :: ms) =
      (pieces none ms).map (Piece.named (name ++ as.map Prod.fst) :: ·) := by
  induction as generalizing name with
  | nil => simp [pieces]
  | cons m as ih =>
    obtain ⟨c, mark⟩ := m
    rw [List.flatMap_cons] at h
    obtain ⟨first, h⟩ := List.forall_mem_append.mp h
    have unmarked : ¬(c = '\x7d' ∧ (!mark) = true) := by
      rintro ⟨rfl, bare⟩
      simp only [Bool.not_eq_true'] at bare
      rw [ink_brace encode_closeBrace, bare] at first
      exact absurd (first _ (List.mem_singleton_self _)) (by decide)
    rw [List.cons_append, pieces, if_neg unmarked, ih h]
    simp

/-! ## Renaming -/

/-- Tokens that say what some pieces say. -/
inductive Tells : List Piece → List Token → Prop
  | nil : Tells [] []
  | text (c : Char) : Tells ps ts → Tells (.text c :: ps) (literal (String.utf8EncodeChar c) ++ ts)
  | parameter (name : List Char) : Tells ps ts → Tells (.parameter name :: ps) (.parameter :: ts)
  | rest (name : List Char) : catchAllName label = encode name → Tells ps ts →
      Tells (.rest name :: ps) (.rest label :: ts)

theorem Tells.literal {ps : List Piece} {ts : List Token} (h : Tells ps ts) (cs : List Char) :
    Tells (cs.map Piece.text ++ ps) (Route.literal (encode cs) ++ ts) := by
  induction cs with
  | nil => exact h
  | cons c cs ih =>
    rw [Text.Utf8.encode_cons, literal_append, List.append_assoc]
    exact .text c ih

theorem Tells.eq_nil {ps : List Piece} {ts : List Token} (h : Tells ps ts) (nil : ts = []) : ps = [] := by
  cases h with
  | nil => rfl
  | text c => exact absurd (List.map_eq_nil_iff.mp (List.append_eq_nil_iff.mp nil).1) String.utf8EncodeChar_ne_nil
  | parameter => cases nil
  | rest => cases nil

/-- What follows a parameter if it is no brace. -/
theorem Tells.spaced {ps : List Piece} {ts : List Token} (h : Tells ps ts) {ms : List (Char × Bool)}
    (read : pieces none ms = some ps) (text : ∀ m ∈ ms.head?, m.1 ≠ '\x7b' ∧ m.1 ≠ '\x7d') :
    ts = [] ∨ ∃ b, ts.head? = some (.byte b) ∧ ¬IsBrace b := by
  cases ms with
  | nil =>
    cases read
    cases h
    exact .inl rfl
  | cons m ms =>
    obtain ⟨c, mark⟩ := m
    obtain ⟨notOpen, notClose⟩ := text _ rfl
    rw [pieces, if_neg (fun hex => notOpen hex.1), if_neg (fun hex => notClose hex.1)] at read
    obtain ⟨ps', -, rfl⟩ := Option.map_eq_some_iff.mp read
    cases h with
    | text _ h =>
      obtain ⟨b, bs, hbs⟩ := List.exists_cons_of_ne_nil (String.utf8EncodeChar_ne_nil (c := c))
      refine .inr ⟨b, by rw [hbs]; rfl, ?_⟩
      have braceless : Braceless (encode [c]) := braceless_encode (by simpa using ⟨notOpen, notClose⟩)
      have outside := braceless b (by simp [encode, hbs])
      exact fun brace => brace.elim outside.1 outside.2

def parameterNames (ps : List Piece) : List (List Char) := ps.filterMap Piece.parameter?

theorem parameterNames_text (cs : List Char) (ps : List Piece) :
    parameterNames (cs.map Piece.text ++ ps) = parameterNames ps := by
  induction cs with
  | nil => rfl
  | cons c cs ih => exact ih

theorem named_cases {name : List Char} {cs : List Cell} (h : bytes cs = encode name) :
    (Raw.isRest cs = true ∧ ∃ rest, Piece.named name = .rest rest ∧
        catchAllName (Raw.cells (.braces cs)) = encode rest) ∨
      Raw.isRest cs = false ∧ Piece.named name = .parameter name := by
  have hstar : (encode name).head? = some star ↔ name.head? = some '*' := by
    cases name with
    | nil => simp [encode]
    | cons c name => rw [Text.Utf8.head_encode encode_star (by decide)]; simp
  by_cases first : name.head? = some '*'
  · obtain ⟨rest, rfl⟩ := List.head?_eq_some_iff.mp first
    refine .inl ⟨by simp [Raw.isRest, h, hstar.mpr first], rest, rfl, ?_⟩
    rw [Text.Utf8.encode_cons, encode_star] at h
    have whole : bytes (Raw.cells (.braces cs)) = openBrace :: star :: (encode rest ++ [closeBrace]) := by
      simp only [bytes, List.singleton_append] at h
      simp [Raw.cells, bytes, h]
    rw [catchAllName, whole, List.drop_succ_cons, List.drop_succ_cons, List.drop_zero, List.dropLast_concat]
  · refine .inr ⟨by simp [Raw.isRest, h, hstar, first], ?_⟩
    unfold Piece.named
    split
    · exact absurd rfl first
    · rfl

theorem exists_parameter {ms : List (Char × Bool)} {lit name after : List Cell}
    (h : ms.flatMap ink = lit ++ (Raw.cells (.braces name) ++ after)) : ∃ as bs rest,
      ms = as ++ ('\x7b', false) :: (bs ++ ('\x7d', false) :: rest) ∧ lit = as.flatMap ink ∧ name = bs.flatMap ink ∧
        after = rest.flatMap ink := by
  have opened : ms.flatMap ink = lit ++ ⟨braceByte '\x7b', false⟩ :: (name ++ ⟨closeBrace, false⟩ :: after) := by
    rw [h]
    simp [Raw.cells, braceByte]
  obtain ⟨as, inner, rfl, rfl, closed⟩ := ink_eq_append (.inl rfl) opened
  obtain ⟨bs, rest, rfl, rfl, rfl⟩ := ink_eq_append (c := '\x7d') (.inr rfl) closed.symm
  exact ⟨as, bs, rest, rfl, rfl, rfl, rfl⟩

/-- What is left of a pattern behind a parameter begins with no brace. -/
theorem Spaced.behind {as bs rest : List (Char × Bool)}
    (h : Spaced (as ++ ('\x7b', false) :: (bs ++ ('\x7d', false) :: rest))) :
    Spaced rest ∧ ∀ m ∈ rest.head?, m.1 ≠ '\x7b' ∧ m.1 ≠ '\x7d' := by
  have inner := (List.isChain_append.mp h).2.1
  rw [← List.cons_append] at inner
  have last := (List.isChain_append.mp inner).2.1
  cases rest with
  | nil => exact ⟨.nil, nofun⟩
  | cons m rest =>
    obtain ⟨first, tail⟩ := List.isChain_cons_cons.mp last
    refine ⟨tail, fun d hd => ?_⟩
    cases hd
    exact first rfl

theorem BracesMarked.head {ms : List (Char × Bool)} (h : BracesMarked ms)
    (text : ∀ m ∈ ms.head?, m.1 ≠ '\x7b' ∧ m.1 ≠ '\x7d') : ∀ c ∈ (ms.flatMap ink).head?, c.escaped = false := by
  cases ms with
  | nil => nofun
  | cons m ms =>
    intro c hc
    obtain ⟨b, bs, hbs⟩ := List.exists_cons_of_ne_nil (String.utf8EncodeChar_ne_nil (c := m.1))
    rw [List.flatMap_cons, ink, hbs] at hc
    cases hc
    cases mark : m.2 with
    | false => rfl
    | true => exact ((h m List.mem_cons_self mark).elim (text m rfl).1 (text m rfl).2).elim

/-- What a pattern, or the end of one, says if it is renamed: it is read, and written with these tokens. -/
structure Renamed (ms : List (Char × Bool)) (ps : List Piece) (cs : List Cell) (ts : List Token) : Prop where
  read : pieces none ms = some ps
  written : Written cs ts
  tells : Tells ps ts
  spaced : SpacedTokens ts

theorem Renamed.literal {as ms : List (Char × Bool)} {ps : List Piece} {cs : List Cell} {ts : List Token}
    (hlit : Literal (as.flatMap ink)) (h : Renamed ms ps cs ts) :
    Renamed (as ++ ms) ((as.map Prod.fst).map Piece.text ++ ps) (as.flatMap ink ++ cs)
      (Route.literal (encode (as.map Prod.fst)) ++ ts) where
  read := by
    rw [pieces_literal hlit, h.read, List.map_map]
    rfl
  written := by
    rw [← bytes_ink]
    exact (Written.literal hlit).append h.written
  tells := h.tells.literal _
  spaced := spacedTokens_literal.mpr h.spaced

theorem Renamed.nil : Renamed [] [] [] [] := ⟨rfl, .nil, .nil, trivial⟩

/-- What a parameter or a catch-all in a pattern says, and what it leaves to be renamed. -/
theorem Renamed.braces {bs rest : List (Char × Bool)} {ps : List Piece} {new label : List Cell} {ts : List Token}
    {piece : Piece} {token : Token} (open_ : ∀ c ∈ bs.flatMap ink, c.closes = false) (h : Renamed rest ps new ts)
    (named : Piece.named (bs.map Prod.fst) = piece) (written : Written (label ++ new) (token :: ts))
    (tells : Tells (piece :: ps) (token :: ts)) (spaced : SpacedTokens (token :: ts)) :
    Renamed (('\x7b', false) :: (bs ++ ('\x7d', false) :: rest)) (piece :: ps) (label ++ new) (token :: ts) where
  read := by
    rw [pieces, if_pos (by decide), pieces_name open_, h.read, List.nil_append, named]
    rfl
  written := written
  tells := tells
  spaced := spaced

/-- Renaming the parameters of a pattern from some place on, if no brace follows a parameter there. -/
theorem normalizeFrom_pieces {fuel : Nat} {done : List Cell} {ms : List (Char × Bool)} {names names' : Names}
    {out : List Cell} (hfuel : (ms.flatMap ink).length < fuel) (spaced : Spaced ms) (braces : BracesMarked ms)
    (h : normalizeFrom fuel done.length names (done ++ ms.flatMap ink) = .ok (out, names')) :
    ∃ ps new ts, out = done ++ new ∧ Renamed ms ps new ts ∧ names' = names ++ (parameterNames ps).map encode := by
  induction fuel generalizing done ms names with
  | zero => omega
  | succ fuel ih =>
    cases found : findParameter (ms.flatMap ink) with
    | error e =>
      simp only [normalizeFrom, List.drop_left', found] at h
      cases h
    | ok place =>
      cases place with
      | none =>
        simp only [normalizeFrom, List.drop_left', found] at h
        cases h
        have renamed := Renamed.nil.literal (findParameter_eq_none found)
        have noNames : parameterNames ((ms.map Prod.fst).map Piece.text ++ []) = [] := parameterNames_text _ _
        simp only [List.append_nil] at renamed noNames
        exact ⟨_, _, _, rfl, renamed, by rw [noNames, List.map_nil, List.append_nil]⟩
      | some place =>
        obtain ⟨start, count⟩ := place
        obtain ⟨lit, name, after, split, hlit, rfl, rfl, proper⟩ := findParameter_eq_some found
        obtain ⟨as, bs, rest, rfl, rfl, rfl, rfl⟩ := exists_parameter split
        obtain ⟨spaced', text⟩ := spaced.behind
        have braces' : BracesMarked rest := fun m hm => braces m (by simp [hm])
        have hfuel' : (rest.flatMap ink).length < fuel := by
          rw [split] at hfuel
          simp only [List.length_append, Raw.cells, List.cons_append, List.length_cons] at hfuel
          omega
        rw [split] at h found
        rw [normalizeFrom_step fuel done _ names found] at h
        rcases named_cases (bytes_ink bs) with ⟨isRest, name, named, catchAll⟩ | ⟨notRest, named⟩
        · rw [if_pos isRest] at h
          obtain ⟨ps, new, ts, rfl, renamed, rfl⟩ := ih hfuel' spaced' braces' h
          have label := starLabel_of_found hlit proper isRest found
          have whole := Renamed.braces proper.open_ renamed named (.rest label renamed.written)
            (.rest name catchAll renamed.tells) renamed.spaced
          refine ⟨_, _, _, by simp, whole.literal hlit, ?_⟩
          rw [parameterNames_text]
          rfl
        · rw [if_neg (by simp [notRest])] at h
          by_cases most : mostParameters ≤ names.length
          · rw [if_pos most] at h
            cases h
          have hlabel : plain [openBrace, letter names.length, closeBrace] = parameterLabel names.length := rfl
          rw [if_neg most, replaceCells_middle _ _ _ _ (braces'.head text), hlabel] at h
          obtain ⟨ps, new, ts, rfl, renamed, rfl⟩ := ih hfuel' spaced' braces' h
          have whole := Renamed.braces proper.open_ renamed named
            (.parameter names.length (by omega) renamed.written) (.parameter _ renamed.tells)
            ⟨renamed.tells.spaced renamed.read text, renamed.spaced⟩
          refine ⟨_, _, _, by simp, whole.literal hlit, ?_⟩
          rw [parameterNames_text, bytes_ink]
          simp [parameterNames, Piece.parameter?]

/-- Renaming the parameters of a whole pattern, if no brace follows one. -/
theorem normalize_pieces {pattern : List Char} (spaced : Spaced (marked pattern)) {out : List Cell} {names : Names}
    (h : normalize (cells (encode pattern)) = .ok (out, names)) :
    ∃ ps ts, Renamed (marked pattern) ps out ts ∧ names = (parameterNames ps).map encode := by
  rw [cells_marked] at h
  have whole : normalizeFrom (((marked pattern).flatMap ink).length + 1) ([] : List Cell).length []
      ([] ++ (marked pattern).flatMap ink) = .ok (out, names) := h
  obtain ⟨ps, new, ts, rfl, renamed, rfl⟩ := normalizeFrom_pieces (Nat.lt_succ_self _) spaced
    (bracesMarked_marked pattern) whole
  exact ⟨ps, ts, renamed, rfl⟩

/-! ## Too many parameters -/

theorem pieces_parameter {as bs rest : List (Char × Bool)} (hlit : Literal (as.flatMap ink))
    (open_ : ∀ c ∈ bs.flatMap ink, c.closes = false) :
    pieces none (as ++ ('\x7b', false) :: (bs ++ ('\x7d', false) :: rest)) =
      (pieces none rest).map fun ps => (as.map Prod.fst).map Piece.text ++ Piece.named (bs.map Prod.fst) :: ps := by
  rw [pieces_literal hlit, pieces, if_pos (by decide), pieces_name open_, Option.map_map, List.nil_append, List.map_map]
  rfl

/-- A pattern that is refused for too many parameters has too many. -/
theorem normalizeFrom_tooMany {fuel : Nat} {done : List Cell} {ms : List (Char × Bool)} {names : Names}
    (hfuel : (ms.flatMap ink).length < fuel) (spaced : Spaced ms) (braces : BracesMarked ms)
    (h : normalizeFrom fuel done.length names (done ++ ms.flatMap ink) = .error .tooMany) {ps : List Piece}
    (read : pieces none ms = some ps) : mostParameters < names.length + (parameterNames ps).length := by
  induction fuel generalizing done ms names ps with
  | zero => omega
  | succ fuel ih =>
    cases found : findParameter (ms.flatMap ink) with
    | error e =>
      simp only [normalizeFrom, List.drop_left', found] at h
      obtain rfl := findParameter_fault found
      cases h
    | ok place =>
      cases place with
      | none =>
        simp only [normalizeFrom, List.drop_left', found] at h
        cases h
      | some place =>
        obtain ⟨start, count⟩ := place
        obtain ⟨lit, name, after, split, hlit, rfl, rfl, proper⟩ := findParameter_eq_some found
        obtain ⟨as, bs, rest, rfl, rfl, rfl, rfl⟩ := exists_parameter split
        obtain ⟨spaced', text⟩ := spaced.behind
        have braces' : BracesMarked rest := fun m hm => braces m (by simp [hm])
        have hfuel' : (rest.flatMap ink).length < fuel := by
          rw [split] at hfuel
          simp only [List.length_append, Raw.cells, List.cons_append, List.length_cons] at hfuel
          omega
        rw [pieces_parameter hlit proper.open_] at read
        obtain ⟨ps, readRest, rfl⟩ := Option.map_eq_some_iff.mp read
        rw [split] at h found
        rw [normalizeFrom_step fuel done _ names found] at h
        rw [parameterNames_text]
        rcases named_cases (bytes_ink bs) with ⟨isRest, name, named, -⟩ | ⟨notRest, named⟩
        · rw [if_pos isRest] at h
          rw [named]
          have inner := ih hfuel' spaced' braces' h readRest
          exact inner
        · rw [if_neg (by simp [notRest])] at h
          rw [named]
          have count : (parameterNames (.parameter (bs.map Prod.fst) :: ps)).length =
              (parameterNames ps).length + 1 := rfl
          by_cases most : mostParameters ≤ names.length
          · omega
          · have hlabel : plain [openBrace, letter names.length, closeBrace] = parameterLabel names.length := rfl
            rw [if_neg most, replaceCells_middle _ _ _ _ (braces'.head text), hlabel] at h
            have inner := ih hfuel' spaced' braces' h readRest
            rw [List.length_append, List.length_singleton] at inner
            omega

/-- A pattern that is renamed has not too many. -/
theorem normalizeFrom_most {fuel start : Nat} {names names' : Names} {cs out : List Cell}
    (h : normalizeFrom fuel start names cs = .ok (out, names')) (most : names.length ≤ mostParameters) :
    names'.length ≤ mostParameters := by
  induction fuel generalizing start names cs with
  | zero =>
    cases h
    exact most
  | succ fuel ih =>
    rw [normalizeFrom] at h
    split at h
    · cases h
    · cases h
      exact most
    · simp only at h
      split at h
      · exact ih h most
      · split at h
        · cases h
        · exact ih h (by simp; omega)

/-- How many parameters a whole pattern has if it is renamed, or refused for too many. -/
theorem normalize_count {pattern : List Char} (spaced : Spaced (marked pattern)) {ps : List Piece}
    (read : pieces none (marked pattern) = some ps) :
    (normalize (cells (encode pattern)) = .error .tooMany → mostParameters < (parameterNames ps).length) ∧
      ∀ out names, normalize (cells (encode pattern)) = .ok (out, names) →
        (parameterNames ps).length ≤ mostParameters := by
  constructor
  · intro h
    rw [cells_marked] at h
    have whole : normalizeFrom (((marked pattern).flatMap ink).length + 1) ([] : List Cell).length []
        ([] ++ (marked pattern).flatMap ink) = .error .tooMany := h
    have many := normalizeFrom_tooMany (Nat.lt_succ_self _) spaced (bracesMarked_marked pattern) whole read
    rwa [List.length_nil, Nat.zero_add] at many
  · intro out names h
    obtain ⟨ps', ts, renamed, rfl⟩ := normalize_pieces spaced h
    obtain rfl := Option.some.inj (renamed.read.symm.trans read)
    have most := normalizeFrom_most h (Nat.zero_le _)
    rwa [List.length_map] at most

end JsonService.Route
