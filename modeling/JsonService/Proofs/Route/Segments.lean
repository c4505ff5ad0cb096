import JsonService.Proofs.Route.Normal
import JsonService.Proofs.Route.Search
import JsonService.Proofs.Text.Encoding
import JsonService.Route.Spelling

/-!
# Segments

What routes and paths are to whoever writes them: segments between slashes. A segment of a route is literal
text, a parameter or a catch-all; `Matches` says which paths a route is for and `MoreSpecific` which of two
routes is to be preferred. Neither knows of trees or bytes; the lemmas tell what they come to there.

**Results.**
* `wholeSegment_braceless`, `wholeSegment_braces`: segments without braces, and names in braces, are as they
  should be.
* `spell_route`: the cells of a route are those of its segments.
* `takes_route`: the tokens of a route take the paths that its segments match.
* `moreSpecific_of_wins`: of two routes that match a path, the one whose tokens win is more specific.
-/
namespace JsonService.Route

open Text.Utf8 (encode)

variable {α : Type}

inductive Segment where
  | literal (text : List Char)
  /-- Any one segment that is not empty. -/
  | parameter
  /-- Any rest of a path that is not empty. -/
  | rest
  deriving DecidableEq, Repr

/-- How specific a segment is, the most specific ones first. -/
def Segment.rank : Segment → Nat
  | .literal _ => 0
  | .parameter => 1
  | .rest => 2

/-- What the spelling of a segment means. -/
def Segment.ofSpelling (s : List Char) : Segment :=
  match braceSegment s with
  | '\x7b' :: '*' :: _ => .rest
  | '\x7b' :: _ => .parameter
  | text => .literal text

/-- Whether a route is for a path. -/
def Matches : List Segment → List (List Char) → Prop
  | [], [] => True
  | .literal text :: route, s :: path => s = text ∧ Matches route path
  | .parameter :: route, s :: path => s ≠ [] ∧ Matches route path
  | .rest :: route, s :: path => route = [] ∧ ¬ (s = [] ∧ path = [])
  | [], _ :: _ => False
  | _ :: _, [] => False

/-- Whether a route is preferred to another: the first segment in which they differ decides. -/
def MoreSpecific : List Segment → List Segment → Prop
  | p :: ps, q :: qs => if p = q then MoreSpecific ps qs else p.rank < q.rank
  | _, _ => False

def segments (path : String) : List (List Char) := Text.splitOn isSlash path.toList

/-- A segment of a route that is literal text without braces, or a parameter or a catch-all as a whole: a name
in braces that no brace closes before its end. -/
def WholeSegment (s : List Char) : Prop :=
  (∀ c ∈ braceSegment s, c ≠ '\x7b' ∧ c ≠ '\x7d') ∨
    ∃ name, cells (encode (braceSegment s)) = Raw.cells (.braces name) ∧ ∀ c ∈ name, c.closes = false

/-! ## Splitting and joining -/

def Slashless (s : List Char) : Prop := ∀ c ∈ s, c ≠ '/'

theorem splitOn_slashless (cs : List Char) : ∀ s ∈ Text.splitOn isSlash cs, Slashless s := by
  induction cs with
  | nil => simp [Text.splitOn, Slashless]
  | cons c cs ih =>
    simp only [Text.splitOn]
    split
    · intro s hs
      rcases List.mem_cons.mp hs with rfl | hs
      · intro d hd
        cases hd
      · exact ih s hs
    · rename_i hc
      have hne : c ≠ '/' := by simpa [isSlash] using hc
      cases hsplit : Text.splitOn isSlash cs with
      | nil => exact absurd hsplit (Text.splitOn_ne_nil _ _)
      | cons part parts =>
        rw [hsplit] at ih
        intro s hs
        rcases List.mem_cons.mp hs with rfl | hs
        · intro d hd
          rcases List.mem_cons.mp hd with rfl | hd
          · exact hne
          · exact ih part List.mem_cons_self d hd
        · exact ih s (List.mem_cons_of_mem _ hs)

theorem mem_of_splitOn {c : Char} {s cs : List Char} (hs : s ∈ Text.splitOn isSlash cs) (hc : c ∈ s) : c ∈ cs := by
  induction cs generalizing s with
  | nil =>
    rw [Text.splitOn, List.mem_singleton] at hs
    rwa [hs] at hc
  | cons d cs ih =>
    rw [Text.splitOn] at hs
    split at hs
    · rcases List.mem_cons.mp hs with rfl | hs
      · cases hc
      · exact List.mem_cons_of_mem d (ih hs hc)
    · cases hsplit : Text.splitOn isSlash cs with
      | nil => exact absurd hsplit (Text.splitOn_ne_nil _ _)
      | cons part parts =>
        rw [hsplit] at hs ih
        rcases List.mem_cons.mp hs with rfl | hs
        · rcases List.mem_cons.mp hc with rfl | hc
          · exact List.mem_cons_self
          · exact List.mem_cons_of_mem d (ih List.mem_cons_self hc)
        · exact List.mem_cons_of_mem d (ih (List.mem_cons_of_mem part hs) hc)

/-- What stands in a path after its first segment. -/
def tailChars : List (List Char) → List Char
  | [] => []
  | s :: ss => '/' :: s ++ tailChars ss

theorem joinSegments_cons (s : List Char) (ss : List (List Char)) : joinSegments (s :: ss) = s ++ tailChars ss := by
  induction ss generalizing s with
  | nil => simp [joinSegments, tailChars]
  | cons t ss ih =>
    have h := ih t
    unfold joinSegments at h ⊢
    rw [List.intercalate_cons_cons, h, tailChars]
    simp

theorem joinSegments_splitOn (cs : List Char) : joinSegments (Text.splitOn isSlash cs) = cs := by
  induction cs with
  | nil => rfl
  | cons c cs ih =>
    simp only [Text.splitOn]
    cases hsplit : Text.splitOn isSlash cs with
    | nil => exact absurd hsplit (Text.splitOn_ne_nil _ _)
    | cons part parts =>
      rw [hsplit, joinSegments_cons] at ih
      split
      · rename_i hc
        have heq : c = '/' := by simpa [isSlash] using hc
        rw [joinSegments_cons, tailChars, List.nil_append, List.cons_append, ih, heq]
      · rw [joinSegments_cons, List.cons_append, ih]

/-! ## Spelled segments -/

theorem encode_openBrace : String.utf8EncodeChar '\x7b' = [openBrace] := by decide

theorem encode_closeBrace : String.utf8EncodeChar '\x7d' = [closeBrace] := by decide

theorem encode_star : String.utf8EncodeChar '*' = [star] := by decide

theorem encode_slash : String.utf8EncodeChar '/' = [slash] := by decide

theorem braceless_encode {cs : List Char} (h : ∀ c ∈ cs, c ≠ '\x7b' ∧ c ≠ '\x7d') : Braceless (encode cs) := by
  intro b hb
  constructor
  · intro heq
    subst heq
    exact (h _ ((Text.Utf8.mem_encode encode_openBrace (by decide)).mp hb)).1 rfl
  · intro heq
    subst heq
    exact (h _ ((Text.Utf8.mem_encode encode_closeBrace (by decide)).mp hb)).2 rfl

theorem slash_notMem_encode {cs : List Char} (h : Slashless cs) : slash ∉ encode cs := by
  intro hb
  exact h _ ((Text.Utf8.mem_encode encode_slash (by decide)).mp hb) rfl

theorem cells_head (bs : List UInt8) : (cells bs).head?.map (·.byte) = bs.head? := by
  match bs with
  | [] => rfl
  | [a] => rfl
  | a :: b :: rest =>
    rw [cells]
    split
    · rfl
    · rfl

theorem cells_tail {b : UInt8} {bs : List UInt8} {cs : List Cell} (h : cells (b :: bs) = ⟨b, false⟩ :: cs) :
    cells bs = cs := by
  cases bs with
  | nil =>
    cases h
    rfl
  | cons c bs =>
    rw [cells] at h
    split at h
    · cases h
    · exact (List.cons.inj h).2

/-- A segment that begins with a colon or a star gets braces, and no other one does. -/
theorem braceSegment_cases (s : List Char) : braceSegment s = s ∨
    ∃ name, braceSegment s = '\x7b' :: name ++ ['\x7d'] ∧ (s = ':' :: name ∨ s = name) := by
  unfold braceSegment
  split
  · exact Or.inr ⟨_, rfl, Or.inl rfl⟩
  · exact Or.inr ⟨_, rfl, Or.inr rfl⟩
  · exact Or.inl rfl

theorem slashless_braceSegment {s : List Char} (hs : Slashless s) : Slashless (braceSegment s) := by
  rcases braceSegment_cases s with heq | ⟨name, heq, hname⟩
  · rw [heq]
    exact hs
  · have hname : Slashless name := by
      rcases hname with rfl | rfl
      · exact (List.forall_mem_cons.mp hs).2
      · exact hs
    rw [heq]
    intro c hc
    rcases List.mem_append.mp hc with hc | hc
    · rcases List.mem_cons.mp hc with rfl | hc
      · decide
      · exact hname c hc
    · rw [List.mem_singleton.mp hc]
      decide

theorem wholeSegment_braces {name : List Char} (h : ∀ c ∈ name, c ≠ '\x7b' ∧ c ≠ '\x7d') {s : List Char}
    (hs : braceSegment s = '\x7b' :: name ++ ['\x7d']) : WholeSegment s := by
  right
  refine ⟨plain (encode name), ?_, ?_⟩
  · rw [hs, Text.Utf8.encode_append, Text.Utf8.encode_cons, Text.Utf8.encode_cons, encode_openBrace,
      encode_closeBrace, Text.Utf8.encode_eq_nil.mpr rfl]
    exact cells_braces (braceless_encode h)
  · intro c hc
    obtain ⟨b, hb, rfl⟩ := List.mem_map.mp hc
    have hne := (braceless_encode h b hb).2
    simp [Cell.closes, hne]

/-- A segment without braces is literal text or a parameter as a whole. -/
theorem wholeSegment_braceless {s : List Char} (h : ∀ c ∈ s, c ≠ '\x7b' ∧ c ≠ '\x7d') : WholeSegment s := by
  rcases braceSegment_cases s with heq | ⟨name, heq, hname⟩
  · left
    rw [heq]
    exact h
  · refine wholeSegment_braces ?_ heq
    rcases hname with rfl | rfl
    · exact (List.forall_mem_cons.mp h).2
    · exact h

/-- A segment is literal text, or a name in braces: that of a catch-all if it begins with a star, else that of
a parameter. -/
theorem wholeSegment_cases {s : List Char} (hw : WholeSegment s) :
    (Segment.ofSpelling s = .literal (braceSegment s) ∧ ∀ c ∈ braceSegment s, c ≠ '\x7b' ∧ c ≠ '\x7d') ∨
      ∃ name, cells (encode (braceSegment s)) = Raw.cells (.braces name) ∧ (∀ c ∈ name, c.closes = false) ∧
        Segment.ofSpelling s = if Raw.isRest name then .rest else .parameter := by
  rcases hw with hbraceless | ⟨name, hcells, hname⟩
  · left
    refine ⟨?_, hbraceless⟩
    unfold Segment.ofSpelling
    split
    · rename_i heq
      exact absurd rfl (hbraceless '\x7b' (heq ▸ List.mem_cons_self)).1
    · rename_i heq
      exact absurd rfl (hbraceless '\x7b' (heq ▸ List.mem_cons_self)).1
    · rfl
  · right
    refine ⟨name, hcells, hname, ?_⟩
    have hhead := cells_head (encode (braceSegment s))
    rw [hcells] at hhead
    unfold Segment.ofSpelling
    cases hs : braceSegment s with
    | nil =>
      rw [hs] at hhead
      cases hhead
    | cons c more =>
      rw [hs] at hhead hcells
      obtain rfl : c = '\x7b' := (Text.Utf8.head_encode encode_openBrace (by decide) more).mp hhead.symm
      rw [Text.Utf8.encode_cons, encode_openBrace] at hcells
      have hmore : cells (encode more) = name ++ [⟨closeBrace, false⟩] := cells_tail hcells
      have hfirst := cells_head (encode more)
      rw [hmore] at hfirst
      cases more with
      | nil =>
        rw [Text.Utf8.encode_eq_nil.mpr rfl] at hmore
        cases name <;> cases hmore
      | cons d more =>
        -- the name begins with a star if its text does
        have hstar := Text.Utf8.head_encode (c := d) encode_star (by decide) more
        rw [← hfirst] at hstar
        have hrest : Raw.isRest name = true ↔ d = '*' := by
          rw [← hstar]
          cases name with
          | nil => simp [Raw.isRest, bytes, star, closeBrace]
          | cons c name => simp [Raw.isRest, bytes]
        by_cases hd : d = '*'
        · rw [if_pos (hrest.mpr hd), hd]
          rfl
        · rw [if_neg (fun h => hd (hrest.mp h))]
          split
          · rename_i heq
            cases heq
            exact absurd rfl hd
          · rfl
          · rename_i hnot
            exact absurd rfl (hnot (d :: more))

/-! ## Routes -/

def segmentRaws (s : List Char) : List Raw :=
  match Segment.ofSpelling s with
  | .literal text => (encode text).map .byte
  | _ => [.braces (cells (encode (braceSegment s))).tail.dropLast]

def tailRaws : List (List Char) → List Raw
  | [] => []
  | s :: ss => .byte slash :: (segmentRaws s ++ tailRaws ss)

def routeRaws : List (List Char) → List Raw
  | [] => []
  | s :: ss => segmentRaws s ++ tailRaws ss

def routeTokens (ss : List (List Char)) : List Token := (routeRaws ss).map Raw.token

theorem spell_append (as bs : List Raw) : spell (as ++ bs) = spell as ++ spell bs := List.flatMap_append

theorem spell_bytes (bs : List UInt8) : spell (bs.map .byte) = plain bs := by
  induction bs with
  | nil => rfl
  | cons b bs ih =>
    rw [List.map_cons, plain_cons, ← ih]
    rfl

theorem whole_bytes {bs : List UInt8} (hb : Braceless bs) {rs : List Raw} (hw : Whole rs) :
    Whole (bs.map .byte ++ rs) := by
  induction bs with
  | nil => exact hw
  | cons b bs ih =>
    obtain ⟨hb, hbs⟩ := braceless_cons.mp hb
    exact ⟨hb, ih hbs⟩

/-- A segment is spelled by its pieces, and stands for itself before whatever starts a new one. -/
theorem spell_segment {s : List Char} (hw : WholeSegment s) :
    spell (segmentRaws s) = cells (encode (braceSegment s)) ∧
      ∀ rs, (rs = [] ∨ rs.head? = some (.byte slash)) → Whole rs → Whole (segmentRaws s ++ rs) := by
  rcases wholeSegment_cases hw with ⟨hliteral, hbraces⟩ | ⟨name, hcells, hname, hof⟩
  · have hb := braceless_encode hbraces
    rw [segmentRaws, hliteral]
    refine ⟨?_, fun rs _ hrs => whole_bytes hb hrs⟩
    rw [spell_bytes, cells_braceless hb]
  · have hraws : segmentRaws s = [.braces name] := by
      rw [segmentRaws, hof, hcells]
      cases Raw.isRest name <;> simp [Raw.cells]
    rw [hraws, hcells]
    refine ⟨?_, fun rs hstart hrs => ⟨hname, hstart, hrs⟩⟩
    simp [spell]

theorem tailRaws_start (ss : List (List Char)) : tailRaws ss = [] ∨ (tailRaws ss).head? = some (.byte slash) := by
  cases ss with
  | nil => exact Or.inl rfl
  | cons s ss => exact Or.inr rfl

theorem whole_tail {ss : List (List Char)} (hw : ∀ s ∈ ss, WholeSegment s) : Whole (tailRaws ss) := by
  induction ss with
  | nil => trivial
  | cons s ss ih =>
    obtain ⟨hs, hss⟩ := List.forall_mem_cons.mp hw
    exact ⟨by decide, (spell_segment hs).2 _ (tailRaws_start ss) (ih hss)⟩

theorem encode_tail (s : List Char) (ss : List (List Char)) :
    encode (tailChars (s :: ss)) = slash :: (encode s ++ encode (tailChars ss)) := by
  rw [tailChars, List.cons_append, Text.Utf8.encode_cons, encode_slash, Text.Utf8.encode_append,
    List.singleton_append]

theorem spell_tail {ss : List (List Char)} (hw : ∀ s ∈ ss, WholeSegment s) (bs : List UInt8) :
    cells (bs ++ encode (tailChars (ss.map braceSegment))) = cells bs ++ spell (tailRaws ss) := by
  induction ss generalizing bs with
  | nil => simp [tailChars, tailRaws, spell, Text.Utf8.encode_eq_nil.mpr]
  | cons s ss ih =>
    obtain ⟨hs, hss⟩ := List.forall_mem_cons.mp hw
    have hspell : spell (tailRaws (s :: ss)) = ⟨slash, false⟩ :: (spell (segmentRaws s) ++ spell (tailRaws ss)) := by
      rw [← spell_append]
      rfl
    rw [List.map_cons, encode_tail, cells_append_slash, ih hss, hspell, (spell_segment hs).1]

/-- The cells of a route are those of its pieces, and its parameters fill their segments. -/
theorem spell_route {ss : List (List Char)} (hw : ∀ s ∈ ss, WholeSegment s) :
    cells (encode (joinSegments (ss.map braceSegment))) = spell (routeRaws ss) ∧ Whole (routeRaws ss) := by
  cases ss with
  | nil => exact ⟨rfl, trivial⟩
  | cons s ss =>
    obtain ⟨hs, hss⟩ := List.forall_mem_cons.mp hw
    refine ⟨?_, (spell_segment hs).2 _ (tailRaws_start ss) (whole_tail hss)⟩
    rw [List.map_cons, joinSegments_cons, Text.Utf8.encode_append, spell_tail hss, routeRaws, spell_append,
      (spell_segment hs).1]

/-! ## Paths -/

theorem after?_eq_some {l path rest : List UInt8} : after? l path = some rest ↔ path = l ++ rest := by
  unfold after?
  split
  · rename_i h
    obtain ⟨more, rfl⟩ := List.isPrefixOf_iff_prefix.mp h
    simp
  · rename_i h
    constructor
    · nofun
    · intro heq
      subst heq
      exact absurd (List.isPrefixOf_iff_prefix.mpr (List.prefix_append l rest)) h

/-- What may stand after a segment of a path. -/
def EndsSegment (bs : List UInt8) : Prop := bs = [] ∨ bs.head? = some slash

theorem takeWhile_segment {name rest : List UInt8} (hname : slash ∉ name) (hrest : EndsSegment rest) :
    (name ++ rest).takeWhile (· ≠ slash) = name := by
  rw [List.takeWhile_append_of_pos (by
    intro b hb
    simp only [ne_eq, decide_not, Bool.not_eq_eq_eq_not, Bool.not_true, decide_eq_false_iff_not]
    intro heq
    subst heq
    exact hname hb)]
  rcases hrest with rfl | hrest
  · simp
  · obtain ⟨rest, rfl⟩ := List.head?_eq_some_iff.mp hrest
    simp

theorem segment_unique {a b as bs : List UInt8} (ha : slash ∉ a) (hb : slash ∉ b) (has : EndsSegment as)
    (hbs : EndsSegment bs) (h : a ++ as = b ++ bs) : a = b ∧ as = bs := by
  have hsame : a = b := by rw [← takeWhile_segment ha has, h, takeWhile_segment hb hbs]
  subst hsame
  exact ⟨rfl, List.append_cancel_left h⟩

theorem takes_ends {leaf : Leaf α} {ts : List Token} (hts : StartsSegment ts) {path : List UInt8}
    (h : (takes leaf ts path).isSome) : EndsSegment path := by
  rcases hts with rfl | hts
  · cases path with
    | nil => exact Or.inl rfl
    | cons b path => cases h
  · right
    by_cases hpath : path.head? = some slash
    · exact hpath
    · rw [takes_byte hts hpath] at h
      cases h

theorem segment_tokens {s : List Char} (hw : WholeSegment s) :
    (Segment.ofSpelling s = .literal (braceSegment s) ∧
        (segmentRaws s).map Raw.token = literal (encode (braceSegment s))) ∨
      (Segment.ofSpelling s = .parameter ∧ (segmentRaws s).map Raw.token = [.parameter]) ∨
      (Segment.ofSpelling s = .rest ∧ ∃ label, (segmentRaws s).map Raw.token = [.rest label]) := by
  rcases wholeSegment_cases hw with ⟨hof, -⟩ | ⟨name, hcells, -, hof⟩
  · left
    refine ⟨hof, ?_⟩
    rw [segmentRaws, hof, List.map_map]
    rfl
  · right
    have htokens : (segmentRaws s).map Raw.token = [Raw.token (.braces name)] := by
      rw [segmentRaws, hof, hcells]
      cases Raw.isRest name <;> simp [Raw.cells]
    rw [htokens, hof, Raw.token]
    cases Raw.isRest name with
    | true => exact Or.inr ⟨rfl, _, rfl⟩
    | false => exact Or.inl ⟨rfl, rfl⟩

/-- Whether the tokens of a segment take a path is decided by its first segment, and by what comes after. -/
theorem takes_segment {leaf : Leaf α} {s p : List Char} (hw : WholeSegment s) (hs : Slashless s) (hp : Slashless p)
    {ts : List Token} (hts : StartsSegment ts) {path : List UInt8} (hpath : EndsSegment path) :
    (takes leaf ((segmentRaws s).map Raw.token ++ ts) (encode p ++ path)).isSome ↔
      match Segment.ofSpelling s with
      | .literal text => p = text ∧ (takes leaf ts path).isSome
      | .parameter => p ≠ [] ∧ (takes leaf ts path).isSome
      | .rest => ts = [] ∧ ¬ (p = [] ∧ path = []) := by
  have hslash := slash_notMem_encode hp
  rcases segment_tokens hw with ⟨hof, htokens⟩ | ⟨hof, htokens⟩ | ⟨hof, label, htokens⟩
  · have hslash' := slash_notMem_encode (slashless_braceSegment hs)
    rw [htokens, hof, takes_literal]
    simp only
    constructor
    · intro h
      obtain ⟨m, hm⟩ := Option.isSome_iff_exists.mp h
      obtain ⟨rest, hafter, hrest⟩ := Option.bind_eq_some_iff.mp hm
      have hsome : (takes leaf ts rest).isSome := by rw [hrest]; rfl
      obtain ⟨htext, rfl⟩ :=
        segment_unique hslash hslash' hpath (takes_ends hts hsome) (after?_eq_some.mp hafter)
      exact ⟨Text.Utf8.encode_injective htext, hsome⟩
    · intro hex
      obtain ⟨rfl, h⟩ := hex
      rw [after?_eq_some.mpr rfl]
      exact h
  · rw [htokens, hof, List.singleton_append]
    by_cases hnil : p = []
    · subst hnil
      have hempty : ([] ++ path).takeWhile (· ≠ slash) = [] := takeWhile_segment (by simp) hpath
      have hnone : takes leaf (.parameter :: ts) (encode [] ++ path) = none := by
        rw [Text.Utf8.encode_eq_nil.mpr rfl, takes, hempty]
        rfl
      simp [hnone]
    · have hne : encode p ≠ [] := fun h => hnil (Text.Utf8.encode_eq_nil.mp h)
      rw [takes_parameter leaf ts hne (takeWhile_segment hslash hpath), Option.isSome_map]
      simp [hnil]
  · rw [htokens, hof, List.singleton_append, takes, Option.isSome_ite]
    simp [Text.Utf8.encode_eq_nil]

def tailTokens (ss : List (List Char)) : List Token := (tailRaws ss).map Raw.token

theorem tailTokens_cons (s : List Char) (ss : List (List Char)) :
    tailTokens (s :: ss) = .byte slash :: ((segmentRaws s).map Raw.token ++ tailTokens ss) := by
  rw [tailTokens, tailRaws, List.map_cons, List.map_append]
  rfl

theorem routeTokens_cons (s : List Char) (ss : List (List Char)) :
    routeTokens (s :: ss) = (segmentRaws s).map Raw.token ++ tailTokens ss := List.map_append

theorem tailTokens_start (ss : List (List Char)) : StartsSegment (tailTokens ss) := by
  cases ss with
  | nil => exact Or.inl rfl
  | cons s ss => exact Or.inr rfl

theorem tailTokens_eq_nil {ss : List (List Char)} : tailTokens ss = [] ↔ ss = [] := by
  cases ss with
  | nil => simp [tailTokens, tailRaws]
  | cons s ss => simp [tailTokens_cons]

theorem tailChars_ends (ps : List (List Char)) : EndsSegment (encode (tailChars ps)) := by
  cases ps with
  | nil => exact Or.inl rfl
  | cons p ps =>
    rw [encode_tail]
    exact Or.inr rfl

theorem encode_tailChars_eq_nil {ps : List (List Char)} : encode (tailChars ps) = [] ↔ ps = [] := by
  cases ps with
  | nil => simp [tailChars, Text.Utf8.encode_eq_nil]
  | cons p ps => simp [encode_tail]

/-- Segments of routes without slashes, none of which mixes a parameter with literal text. -/
def ProperSegments (ss : List (List Char)) : Prop := ∀ s ∈ ss, WholeSegment s ∧ Slashless s

theorem takes_cons {leaf : Leaf α} {s p : List Char} {ss ps : List (List Char)} (hs : WholeSegment s ∧ Slashless s)
    (hp : Slashless p) (ih : (takes leaf (tailTokens ss) (encode (tailChars ps))).isSome ↔
      Matches (ss.map Segment.ofSpelling) ps) :
    (takes leaf ((segmentRaws s).map Raw.token ++ tailTokens ss) (encode p ++ encode (tailChars ps))).isSome ↔
      Matches (Segment.ofSpelling s :: ss.map Segment.ofSpelling) (p :: ps) := by
  rw [takes_segment hs.1 hs.2 hp (tailTokens_start ss) (tailChars_ends ps), ih, tailTokens_eq_nil,
    encode_tailChars_eq_nil]
  cases Segment.ofSpelling s with
  | literal text => rfl
  | parameter => rfl
  | rest => simp [Matches]

theorem takes_tail {leaf : Leaf α} {ss : List (List Char)} (hss : ProperSegments ss) {ps : List (List Char)}
    (hps : ∀ p ∈ ps, Slashless p) : (takes leaf (tailTokens ss) (encode (tailChars ps))).isSome ↔
      Matches (ss.map Segment.ofSpelling) ps := by
  induction ss generalizing ps with
  | nil =>
    cases ps with
    | nil => simp [tailTokens, tailRaws, tailChars, Text.Utf8.encode_eq_nil.mpr, takes, Matches]
    | cons p ps => simp [tailTokens, tailRaws, encode_tail, takes, Matches]
  | cons s ss ih =>
    obtain ⟨hs, hss⟩ := List.forall_mem_cons.mp hss
    cases ps with
    | nil => simp [tailTokens_cons, tailChars, Text.Utf8.encode_eq_nil.mpr, takes, Matches]
    | cons p ps =>
      obtain ⟨hp, hps⟩ := List.forall_mem_cons.mp hps
      rw [tailTokens_cons, encode_tail, takes, if_pos rfl, takes_cons hs hp (ih hss hps), List.map_cons]

theorem takes_route (leaf : Leaf α) {ss ps : List (List Char)} (hss : ProperSegments ss) (hne : ss ≠ [])
    (hps : ∀ p ∈ ps, Slashless p) (hne' : ps ≠ []) :
    (takes leaf (routeTokens ss) (encode (joinSegments ps))).isSome ↔ Matches (ss.map Segment.ofSpelling) ps := by
  obtain ⟨s, ss, rfl⟩ := List.ne_nil_iff_exists_cons.mp hne
  obtain ⟨p, ps, rfl⟩ := List.ne_nil_iff_exists_cons.mp hne'
  obtain ⟨hs, hss⟩ := List.forall_mem_cons.mp hss
  obtain ⟨hp, hps⟩ := List.forall_mem_cons.mp hps
  rw [routeTokens_cons, joinSegments_cons, Text.Utf8.encode_append, takes_cons hs hp (takes_tail hss hps),
    List.map_cons]

/-! ## Preference -/

/-- What a segment that is for a path begins with tells how specific it is. -/
theorem segment_first {s p : List Char} (hw : WholeSegment s) {ss ps : List (List Char)}
    (hm : Matches ((s :: ss).map Segment.ofSpelling) (p :: ps)) :
    (Segment.ofSpelling s = .literal p ∧ (segmentRaws s).map Raw.token = literal (encode p) ∧
        Matches (ss.map Segment.ofSpelling) ps) ∨
      (Segment.ofSpelling s = .parameter ∧ (segmentRaws s).map Raw.token = [.parameter] ∧ p ≠ [] ∧
        Matches (ss.map Segment.ofSpelling) ps) ∨
      (Segment.ofSpelling s = .rest ∧ (∃ label, (segmentRaws s).map Raw.token = [.rest label]) ∧ ss = []) := by
  rw [List.map_cons] at hm
  rcases segment_tokens hw with ⟨hof, htokens⟩ | ⟨hof, htokens⟩ | ⟨hof, label, htokens⟩
  · rw [hof] at hm
    obtain ⟨rfl, hm⟩ := hm
    exact Or.inl ⟨hof, htokens, hm⟩
  · rw [hof] at hm
    exact Or.inr (Or.inl ⟨hof, htokens, hm.1, hm.2⟩)
  · rw [hof] at hm
    exact Or.inr (Or.inr ⟨hof, ⟨label, htokens⟩, by simpa using hm.1⟩)

/-- Tokens of a less specific kind do not win against what a literal segment begins with. -/
theorem not_wins_literal {t : Token} (ht : 0 < t.rank) (ts : List Token) {p : List Char} {ss : List (List Char)} :
    ¬ wins (t :: ts) (literal (encode p) ++ tailTokens ss) := by
  have hbyte : ∀ b : UInt8, ∀ us, ¬ wins (t :: ts) (.byte b :: us) := by
    intro b us h
    have hne : t ≠ .byte b := by
      intro heq
      subst heq
      exact absurd ht (Nat.lt_irrefl 0)
    rw [wins, if_neg hne] at h
    exact Nat.not_lt_zero _ h
  cases encode p with
  | cons b bs => exact hbyte b _
  | nil =>
    cases ss with
    | nil => exact id
    | cons s ss =>
      rw [tailTokens_cons]
      exact hbyte slash _

/-- One segment further, if the tokens win there, the segments are more specific. -/
theorem moreSpecific_cons {s s' p : List Char} {ss ss' ps : List (List Char)} (hs : WholeSegment s)
    (hs' : WholeSegment s') (hm : Matches ((s :: ss).map Segment.ofSpelling) (p :: ps))
    (hm' : Matches ((s' :: ss').map Segment.ofSpelling) (p :: ps))
    (ih : Matches (ss.map Segment.ofSpelling) ps → Matches (ss'.map Segment.ofSpelling) ps →
      wins (tailTokens ss) (tailTokens ss') → MoreSpecific (ss.map Segment.ofSpelling) (ss'.map Segment.ofSpelling))
    (h : wins ((segmentRaws s).map Raw.token ++ tailTokens ss) ((segmentRaws s').map Raw.token ++ tailTokens ss')) :
    MoreSpecific ((s :: ss).map Segment.ofSpelling) ((s' :: ss').map Segment.ofSpelling) := by
  rw [List.map_cons, List.map_cons, MoreSpecific]
  rcases segment_first hs hm with ⟨hof, htokens, hm⟩ | ⟨hof, htokens, hne, hm⟩ | ⟨hof, ⟨label, htokens⟩, rfl⟩
  · rcases segment_first hs' hm' with ⟨hof', htokens', hm'⟩ | ⟨hof', -⟩ | ⟨hof', -⟩
    · rw [htokens, htokens', wins_append] at h
      rw [hof, hof', if_pos rfl]
      exact ih hm hm' h
    · rw [hof, hof', if_neg (by simp)]
      exact Nat.zero_lt_one
    · rw [hof, hof', if_neg (by simp)]
      exact Nat.zero_lt_two
  · rcases segment_first hs' hm' with ⟨hof', htokens', -⟩ | ⟨hof', htokens', -, hm'⟩ | ⟨hof', -⟩
    · rw [htokens, htokens'] at h
      exact absurd h (not_wins_literal (t := .parameter) Nat.zero_lt_one _)
    · rw [htokens, htokens', wins_append] at h
      rw [hof, hof', if_pos rfl]
      exact ih hm hm' h
    · rw [hof, hof', if_neg (by simp)]
      exact Nat.one_lt_two
  · rcases segment_first hs' hm' with ⟨hof', htokens', -⟩ | ⟨hof', htokens', -⟩ | ⟨hof', ⟨label', htokens'⟩, rfl⟩
    · rw [htokens, htokens'] at h
      exact absurd h (not_wins_literal (t := .rest label) Nat.zero_lt_two _)
    · rw [htokens, htokens', List.singleton_append, List.singleton_append, wins, if_neg (by simp)] at h
      exact absurd h (show ¬ (2 : Nat) < 1 by decide)
    · rw [htokens, htokens', List.singleton_append, List.singleton_append, wins] at h
      split at h
      · cases h
      · exact absurd h (Nat.lt_irrefl 2)

theorem moreSpecific_of_wins_tail {ss ss' ps : List (List Char)} (hss : ProperSegments ss) (hss' : ProperSegments ss')
    (hm : Matches (ss.map Segment.ofSpelling) ps) (hm' : Matches (ss'.map Segment.ofSpelling) ps)
    (h : wins (tailTokens ss) (tailTokens ss')) :
    MoreSpecific (ss.map Segment.ofSpelling) (ss'.map Segment.ofSpelling) := by
  induction ss generalizing ss' ps with
  | nil => cases h
  | cons s ss ih =>
    cases ss' with
    | nil =>
      rw [tailTokens_cons] at h
      cases h
    | cons s' ss' =>
      obtain ⟨hs, hss⟩ := List.forall_mem_cons.mp hss
      obtain ⟨hs', hss'⟩ := List.forall_mem_cons.mp hss'
      cases ps with
      | nil => simp [Matches] at hm
      | cons p ps =>
        rw [tailTokens_cons, tailTokens_cons, wins, if_pos rfl] at h
        exact moreSpecific_cons hs.1 hs'.1 hm hm' (fun hm hm' h => ih hss hss' hm hm' h) h

/-- Of two routes that match a path, the one whose tokens win is more specific. -/
theorem moreSpecific_of_wins {ss ss' ps : List (List Char)} (hss : ProperSegments ss) (hss' : ProperSegments ss')
    (hm : Matches (ss.map Segment.ofSpelling) ps) (hm' : Matches (ss'.map Segment.ofSpelling) ps)
    (h : wins (routeTokens ss) (routeTokens ss')) :
    MoreSpecific (ss.map Segment.ofSpelling) (ss'.map Segment.ofSpelling) := by
  cases ss with
  | nil => cases h
  | cons s ss =>
    cases ss' with
    | nil =>
      cases ps with
      | nil => simp [Matches] at hm
      | cons p ps => simp [Matches] at hm'
    | cons s' ss' =>
      obtain ⟨hs, hss⟩ := List.forall_mem_cons.mp hss
      obtain ⟨hs', hss'⟩ := List.forall_mem_cons.mp hss'
      cases ps with
      | nil => simp [Matches] at hm
      | cons p ps =>
        rw [routeTokens_cons, routeTokens_cons] at h
        exact moreSpecific_cons hs.1 hs'.1 hm hm' (fun hm hm' h => moreSpecific_of_wins_tail hss hss' hm hm' h) h

end JsonService.Route
