import JsonService.Proofs.Route.Occupied
import JsonService.Proofs.Route.Pieces

/-!
# Segments as they are read

A segment of a route says some text, or it is a parameter or a catch-all as a whole (`Segment.read`). A parameter may be
spelled with a colon or in braces, a catch-all with a star or in braces, and neither says what it is called. The pattern
of a route is read segment by segment, and where each is read as a whole its parameters fill their segments.

**Results.**
* `read_parameter`, `read_rest`, `read_literal`: what is read of the usual spellings.
* `pieces_tail`: what a pattern says if its segments are read one by one.
* `spaced_of_segmented`, `Tells.roomy`: what follows a parameter if it ends its segment.
* `Tells.shape`: tokens that tell the same pieces are of one shape, whatever names these have.
-/
namespace JsonService.Route

variable {α : Type}

/-! ## Segments that are read -/

/-- The text of pieces that are nothing else. -/
def Piece.texts : List Piece → Option (List Char)
  | [] => some []
  | .text c :: ps => (texts ps).map (c :: ·)
  | _ => none

/-- What a segment says as a whole: some text, a parameter or a catch-all. Nothing if it mixes them, or if it cannot be
read. -/
def Segment.read (s : List Char) : Option Segment :=
  match pieces none (marked (braceSegment s)) with
  | some [.parameter _] => some .parameter
  | some [.rest _] => some .rest
  | some ps => (Piece.texts ps).map .literal
  | none => none

/-- What a piece says whatever it is called. -/
def Piece.shape : Piece → Piece
  | .text c => .text c
  | .parameter _ => .parameter []
  | .rest _ => .rest []

/-- The pieces of a segment, without names. -/
def Segment.pieces : Segment → List Piece
  | .literal text => text.map .text
  | .parameter => [.parameter []]
  | .rest => [.rest []]

/-- The pieces of segments that a slash stands before, without names. -/
def tailPieces : List Segment → List Piece
  | [] => []
  | g :: gs => .text '/' :: (g.pieces ++ tailPieces gs)

theorem Piece.texts_eq_some {ps : List Piece} {text : List Char} (h : texts ps = some text) :
    ps = text.map .text := by
  induction ps generalizing text with
  | nil =>
    cases h
    rfl
  | cons p ps ih =>
    cases p with
    | text c =>
      obtain ⟨cs, hcs, rfl⟩ := Option.map_eq_some_iff.mp h
      rw [ih hcs, List.map_cons]
    | parameter | rest => cases h

theorem Piece.texts_texts (text : List Char) : texts (text.map .text) = some text := by
  induction text with
  | nil => rfl
  | cons c text ih =>
    rw [List.map_cons, texts, ih]
    rfl

theorem Piece.shape_texts (text : List Char) : (text.map Piece.text).map Piece.shape = text.map Piece.text := by
  rw [List.map_map]
  rfl

theorem Segment.read_eq_some {s : List Char} {g : Segment} (h : read s = some g) :
    ∃ ps, Route.pieces none (marked (braceSegment s)) = some ps ∧ ps.map Piece.shape = g.pieces := by
  rw [read] at h
  split at h
  · next name heq =>
    cases h
    exact ⟨_, heq, rfl⟩
  · next name heq =>
    cases h
    exact ⟨_, heq, rfl⟩
  · next ps _ _ heq =>
    obtain ⟨text, htext, rfl⟩ := Option.map_eq_some_iff.mp h
    rw [Piece.texts_eq_some htext] at heq
    exact ⟨_, heq, Piece.shape_texts text⟩
  · cases h

theorem Piece.named_isSome (name : List Char) : (Piece.named name).name?.isSome = true := by
  unfold Piece.named
  split <;> rfl

theorem pieces_inside {name : List Char} {ms : List (Char × Bool)} {ps : List Piece}
    (h : pieces (some name) ms = some ps) : ∃ name' ps', ps = Piece.named name' :: ps' := by
  induction ms generalizing name with
  | nil => cases h
  | cons m ms ih =>
    obtain ⟨c, mark⟩ := m
    rw [pieces] at h
    split at h
    · obtain ⟨ps', -, rfl⟩ := Option.map_eq_some_iff.mp h
      exact ⟨_, _, rfl⟩
    · exact ih h

theorem pieces_outside {c : Char} {mark : Bool} {ms : List (Char × Bool)} {ps : List Piece}
    (h : pieces none ((c, mark) :: ms) = some ps) :
    ((c, mark) = ('\x7b', false) ∧ pieces (some []) ms = some ps) ∨
      (c, mark) ≠ ('\x7d', false) ∧ ∃ ps', pieces none ms = some ps' ∧ ps = .text c :: ps' := by
  rw [pieces] at h
  split at h
  · next opens => exact .inl ⟨by simpa using opens, h⟩
  · split at h
    · cases h
    · next closes =>
      obtain ⟨ps', read, rfl⟩ := Option.map_eq_some_iff.mp h
      exact .inr ⟨by simpa using closes, ps', read, rfl⟩

theorem eq_nil_of_pieces {ms : List (Char × Bool)} (h : pieces none ms = some []) : ms = [] := by
  cases ms with
  | nil => rfl
  | cons m ms =>
    rcases pieces_outside h with ⟨-, inside⟩ | ⟨-, ps', -, cons⟩
    · obtain ⟨name, ps', cons⟩ := pieces_inside inside
      cases cons
    · cases cons

theorem pieces_append {as : List (Char × Bool)} {open? : Option (List Char)} {ps : List Piece}
    (h : pieces open? as = some ps) (bs : List (Char × Bool)) :
    pieces open? (as ++ bs) = (pieces none bs).map (ps ++ ·) := by
  induction as generalizing open? ps with
  | nil =>
    cases open? with
    | none =>
      cases h
      simp
    | some name => cases h
  | cons m as ih =>
    obtain ⟨c, mark⟩ := m
    cases open? with
    | none =>
      rw [List.cons_append, pieces]
      rw [pieces] at h
      split at h
      · next opens => rw [if_pos opens, ih h]
      · next opens =>
        split at h
        · cases h
        · next closes =>
          obtain ⟨ps', read, rfl⟩ := Option.map_eq_some_iff.mp h
          rw [if_neg opens, if_neg closes, ih read, Option.map_map]
          rfl
    | some name =>
      rw [List.cons_append, pieces]
      rw [pieces] at h
      split at h
      · next closes =>
        obtain ⟨ps', read, rfl⟩ := Option.map_eq_some_iff.mp h
        rw [if_pos closes, ih read, Option.map_map]
        rfl
      · next closes => rw [if_neg closes, ih h]

/-! ## The usual spellings -/

theorem marked_braceless {cs : List Char} (h : ∀ c ∈ cs, c ≠ '\x7b' ∧ c ≠ '\x7d') (ds : List Char) :
    marked (cs ++ ds) = cs.map (·, false) ++ marked ds := by
  induction cs with
  | nil => rfl
  | cons c cs ih =>
    obtain ⟨hc, h⟩ := List.forall_mem_cons.mp h
    have first : marked (c :: (cs ++ ds)) = (c, false) :: marked (cs ++ ds) := by
      cases cs ++ ds with
      | nil => rfl
      | cons d ds => rw [marked, if_neg (by simp [hc])]
    rw [List.cons_append, first, ih h]
    rfl

theorem pieces_braceless {cs : List Char} (h : ∀ c ∈ cs, c ≠ '\x7b' ∧ c ≠ '\x7d') (name : List Char) :
    pieces (some name) (cs.map (·, false) ++ [('\x7d', false)]) = some [Piece.named (name ++ cs)] := by
  induction cs generalizing name with
  | nil => simp [pieces]
  | cons c cs ih =>
    obtain ⟨hc, h⟩ := List.forall_mem_cons.mp h
    rw [List.map_cons, List.cons_append, pieces, if_neg (by simp [hc.2]), ih h, List.append_assoc]
    rfl

theorem pieces_braces {name : List Char} (h : ∀ c ∈ name, c ≠ '\x7b' ∧ c ≠ '\x7d') :
    pieces none (marked ('\x7b' :: name ++ ['\x7d'])) = some [Piece.named name] := by
  have opened : marked ('\x7b' :: name ++ ['\x7d']) = ('\x7b', false) :: marked (name ++ ['\x7d']) := by
    cases name with
    | nil => rfl
    | cons c name =>
      have other : '\x7b' ≠ c := (List.forall_mem_cons.mp h).1.1.symm
      rw [List.cons_append, List.cons_append, marked, if_neg (fun hex => other hex.2)]
  have inside := pieces_braceless h []
  rw [List.nil_append] at inside
  rw [opened, marked_braceless h, pieces, if_pos (by decide)]
  exact inside

/-- A parameter is spelled with a colon or in braces, whatever it is called. -/
theorem read_parameter {s name : List Char} (spelled : s = ':' :: name ∨ s = '\x7b' :: name ++ ['\x7d'])
    (h : ∀ c ∈ name, c ≠ '\x7b' ∧ c ≠ '\x7d') (notStar : name.head? ≠ some '*') :
    Segment.read s = some .parameter := by
  have named : Piece.named name = .parameter name := by
    unfold Piece.named
    split
    · exact absurd rfl notStar
    · rfl
  have braces : braceSegment s = '\x7b' :: name ++ ['\x7d'] := by rcases spelled with rfl | rfl <;> rfl
  rw [Segment.read, braces, pieces_braces h, named]

/-- A catch-all is spelled with a star or in braces, whatever it is called. -/
theorem read_rest {s name : List Char} (spelled : s = '*' :: name ∨ s = '\x7b' :: '*' :: name ++ ['\x7d'])
    (h : ∀ c ∈ name, c ≠ '\x7b' ∧ c ≠ '\x7d') : Segment.read s = some .rest := by
  have braceless : ∀ c ∈ '*' :: name, c ≠ '\x7b' ∧ c ≠ '\x7d' := List.forall_mem_cons.mpr ⟨by decide, h⟩
  have braces : braceSegment s = '\x7b' :: ('*' :: name) ++ ['\x7d'] := by rcases spelled with rfl | rfl <;> rfl
  rw [Segment.read, braces, pieces_braces braceless]
  rfl

theorem pieces_text {text : List Char} (h : ∀ c ∈ text, c ≠ '\x7b' ∧ c ≠ '\x7d') :
    pieces none (text.map (·, false)) = some (text.map .text) := by
  induction text with
  | nil => rfl
  | cons c text ih =>
    obtain ⟨hc, h⟩ := List.forall_mem_cons.mp h
    rw [List.map_cons, pieces, if_neg (by simp [hc.1]), if_neg (by simp [hc.2]), ih h]
    rfl

/-- Other segments without braces are text. -/
theorem read_literal {text : List Char} (h : ∀ c ∈ text, c ≠ '\x7b' ∧ c ≠ '\x7d')
    (notColon : text.head? ≠ some ':') (notStar : text.head? ≠ some '*') :
    Segment.read text = some (.literal text) := by
  have same : braceSegment text = text := by
    unfold braceSegment
    split
    · exact absurd rfl notColon
    · exact absurd rfl notStar
    · rfl
  have whole := marked_braceless h []
  rw [List.append_nil, marked, List.append_nil] at whole
  rw [Segment.read, same, whole, pieces_text h]
  cases text with
  | nil => rfl
  | cons c text => exact congrArg (Option.map Segment.literal) (Piece.texts_texts (c :: text))

/-! ## Slashes -/

theorem marked_slash (bs : List Char) : marked ('/' :: bs) = ('/', false) :: marked bs := by
  cases bs <;> rfl

theorem marked_append_slash (as bs : List Char) : marked (as ++ '/' :: bs) = marked as ++ marked ('/' :: bs) := by
  induction as using marked.induct with
  | case1 a b rest h ih =>
    rw [List.cons_append, List.cons_append, marked, if_pos h, ih, marked, if_pos h, List.cons_append]
  | case2 a b rest h ih =>
    rw [List.cons_append, List.cons_append, marked, if_neg h, ← List.cons_append, ih, marked, if_neg h,
      List.cons_append]
  | case3 a =>
    have single : ¬((a = '\x7b' ∨ a = '\x7d') ∧ a = '/') := by
      rintro ⟨rfl | rfl, h⟩ <;> cases h
    rw [List.singleton_append, marked, if_neg single]
    rfl
  | case4 => rfl

theorem marked_append_tail (s : List Char) (ss : List (List Char)) :
    marked (s ++ tailChars ss) = marked s ++ marked (tailChars ss) := by
  cases ss with
  | nil => simp [tailChars, marked]
  | cons t ss => exact marked_append_slash s _

/-- What the pattern of a route says is read segment by segment. -/
theorem pieces_tail {ss : List (List Char)} {gs : List Segment} (h : ss.map Segment.read = gs.map some) :
    ∃ ps, pieces none (marked (tailChars (ss.map braceSegment))) = some ps ∧
      ps.map Piece.shape = tailPieces gs := by
  induction ss generalizing gs with
  | nil =>
    obtain rfl : gs = [] := List.map_eq_nil_iff.mp h.symm
    exact ⟨[], rfl, rfl⟩
  | cons s ss ih =>
    obtain ⟨g, gs, rfl, hg, hgs⟩ := List.map_eq_cons_iff.mp h.symm
    obtain ⟨ps, read, shape⟩ := Segment.read_eq_some hg.symm
    obtain ⟨more, readMore, shapeMore⟩ := ih hgs.symm
    refine ⟨.text '/' :: (ps ++ more), ?_, ?_⟩
    · rw [List.map_cons, tailChars, List.cons_append, marked_slash, marked_append_tail, pieces,
        if_neg (by decide), if_neg (by decide), pieces_append read, readMore]
      rfl
    · rw [List.map_cons, List.map_append, shape, shapeMore, tailPieces]
      rfl

/-! ## Parameters that end their segments -/

/-- Every parameter and every catch-all is followed by nothing, or by a slash. -/
def Segmented (ps : List Piece) : Prop := ps.IsChain fun a b => a.name?.isSome = true → b = .text '/'

theorem segmented_text {c : Char} {ps : List Piece} : Segmented (.text c :: ps) ↔ Segmented ps := by
  rw [Segmented, List.isChain_cons]
  exact ⟨And.right, fun h => ⟨fun _ _ => nofun, h⟩⟩

theorem segmented_texts {text : List Char} {ps : List Piece} :
    Segmented (text.map Piece.text ++ ps) ↔ Segmented ps := by
  induction text with
  | nil => exact Iff.rfl
  | cons c text ih => rw [List.map_cons, List.cons_append, segmented_text, ih]

theorem segmented_named {p : Piece} (named : p.name?.isSome = true) {ps : List Piece} :
    Segmented (p :: ps) ↔ (∀ b ∈ ps.head?, b = .text '/') ∧ Segmented ps := by
  rw [Segmented, List.isChain_cons]
  exact and_congr_left' (forall₂_congr fun b _ => ⟨fun h => h named, fun h _ => h⟩)

theorem segmented_shape {ps : List Piece} : Segmented (ps.map Piece.shape) ↔ Segmented ps := by
  have named : ∀ p : Piece, p.shape.name?.isSome = p.name?.isSome := by
    intro p
    cases p <;> rfl
  have text : ∀ p : Piece, p.shape = .text '/' ↔ p = .text '/' := by
    intro p
    cases p <;> simp [Piece.shape]
  rw [Segmented, List.isChain_map]
  simp only [named, text]
  rfl

theorem segmented_tail (gs : List Segment) : Segmented (tailPieces gs) := by
  induction gs with
  | nil => exact .nil
  | cons g gs ih =>
    have head : ∀ b ∈ (tailPieces gs).head?, b = .text '/' := by
      cases gs with
      | nil => nofun
      | cons g gs =>
        intro b hb
        exact (Option.some.inj hb).symm
    rw [tailPieces, segmented_text]
    cases g with
    | literal text => exact segmented_texts.mpr ih
    | parameter => exact (segmented_named rfl).mpr ⟨head, ih⟩
    | rest => exact (segmented_named rfl).mpr ⟨head, ih⟩

theorem spaced_of_segmented {ms : List (Char × Bool)} {open? : Option (List Char)} {ps : List Piece}
    (h : pieces open? ms = some ps) (segmented : Segmented ps) : Spaced ms := by
  induction ms generalizing open? ps with
  | nil => exact .nil
  | cons m ms ih =>
    obtain ⟨c, mark⟩ := m
    cases open? with
    | none =>
      rcases pieces_outside h with ⟨opens, inside⟩ | ⟨other, ps', read, rfl⟩
      · refine List.isChain_cons.mpr ⟨fun _ _ closes => ?_, ih inside segmented⟩
        rw [opens] at closes
        cases closes
      · exact List.isChain_cons.mpr ⟨fun _ _ closes => absurd closes other, ih read (segmented_text.mp segmented)⟩
    | some name =>
      rw [pieces] at h
      split at h
      · next closes =>
        obtain ⟨ps', read, rfl⟩ := Option.map_eq_some_iff.mp h
        obtain ⟨head, segmented⟩ := (segmented_named (Piece.named_isSome name)).mp segmented
        refine List.isChain_cons.mpr ⟨fun d hd _ => ?_, ih read segmented⟩
        obtain ⟨e, mark'⟩ := d
        obtain ⟨rest, rfl⟩ := List.head?_eq_some_iff.mp hd
        rcases pieces_outside read with ⟨-, inside⟩ | ⟨-, ps', -, rfl⟩
        · obtain ⟨name', ps', rfl⟩ := pieces_inside inside
          have slash := head _ rfl
          have isSome := Piece.named_isSome name'
          rw [slash] at isSome
          cases isSome
        · cases head _ rfl
          have noBrace : '/' ≠ '\x7b' ∧ '/' ≠ '\x7d' := by decide
          exact noBrace
      · next closes =>
        refine List.isChain_cons.mpr ⟨fun _ _ hc => ?_, ih h segmented⟩
        obtain ⟨rfl, rfl⟩ := Prod.mk.inj hc
        exact absurd ⟨rfl, rfl⟩ closes

theorem Tells.roomy {ps : List Piece} {ts : List Token} (h : Tells ps ts) (segmented : Segmented ps) : Roomy ts := by
  induction h with
  | nil => trivial
  | text c _ ih => exact roomy_literal.mpr (ih (segmented_text.mp segmented))
  | @parameter ps ts name tells ih =>
    obtain ⟨head, segmented⟩ := (segmented_named rfl).mp segmented
    refine ⟨?_, ih segmented⟩
    cases tells with
    | nil => exact .inl rfl
    | text c tells =>
      cases head _ rfl
      exact .inr rfl
    | parameter | rest => cases head _ rfl
  | rest name _ _ ih => exact ih ((segmented_named rfl).mp segmented).2

def Piece.tokens : Piece → List Token
  | .text c => literal (String.utf8EncodeChar c)
  | .parameter _ => [.parameter]
  | .rest _ => [.rest []]

theorem shape_literal_self (bs : List UInt8) : (literal bs).map Token.shape = literal bs := by
  rw [literal, List.map_map]
  rfl

theorem Tells.shape {ps : List Piece} {ts : List Token} (h : Tells ps ts) :
    ts.map Token.shape = (ps.map Piece.shape).flatMap Piece.tokens := by
  induction h with
  | nil => rfl
  | text c _ ih =>
    rw [List.map_append, shape_literal_self, ih]
    rfl
  | parameter name _ ih => exact congrArg (Token.parameter :: ·) ih
  | rest name _ _ ih => exact congrArg (Token.rest [] :: ·) ih

theorem parameterNames_shape (ps : List Piece) :
    (parameterNames (ps.map Piece.shape)).length = (parameterNames ps).length := by
  induction ps with
  | nil => rfl
  | cons p ps ih =>
    cases p with
    | text c => exact ih
    | parameter name => exact congrArg (· + 1) ih
    | rest name => exact ih

end JsonService.Route
