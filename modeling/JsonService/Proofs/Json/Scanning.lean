import Mathlib.Tactic.SplitIfs
import JsonService.Proofs.Json.Grammar
import JsonService.Proofs.Text.Symbols

/-!
# The tokens of a written document

A scan of a text that the grammar accepts finds the tokens of the document that it writes, whatever follows
the text. After a number something has to follow that ends it.

**Results.**
* `scanText_spells`, `spellNumber_magnitude`: the scans of strings and of numbers.
* `yields_written`: the scan of any part of a document.
-/
namespace JsonService.Json

open Text.Utf8 (Symbol)
open Token

/-! ## Strings -/

/-- What stands between quotes spells its content. -/
theorem scanText_spells {t s : List Char} (h : Spells t s) (rest : List Symbol) (place : Nat) :
    ∃ last, scanText none place (t.map .char ++ .char '"' :: rest) =
      ⟨s.map .char, none, .ok (last, rest), 0⟩ := by
  induction h generalizing place with
  | nil => exact ⟨place + 1, by simp [scanText, TextScan.closed]⟩
  | @plain c t s quote slash visible _ ih =>
    obtain ⟨last, ih⟩ := ih (place + c.utf8Size)
    have printable : ¬c.toNat < 0x20 := Nat.not_lt.mpr visible
    refine ⟨last, ?_⟩
    rw [List.map_cons, List.cons_append, scanText.eq_def]
    split <;> simp_all [TextScan.cons]
  | @short e c t s known _ ih =>
    obtain ⟨last, ih⟩ := ih (place + 2)
    have notU : e ≠ 'u' := by rintro rfl; simp [unescape?] at known
    refine ⟨last, ?_⟩
    simp [scanText, notU, known, ih, TextScan.cons]
  | @code a b c d n t s spelled leading trailing _ ih =>
    obtain ⟨last, ih⟩ := ih (place + 6)
    refine ⟨last, ?_⟩
    simp only [code?] at spelled
    simp [scanText, spelled, leading, trailing, ih, TextScan.cons]
  | @pair a b c d n a' b' c' d' m t s spelled leading spelled' trailing _ ih =>
    obtain ⟨last, ih⟩ := ih (place + 12)
    refine ⟨last, ?_⟩
    have notTrailing : isTrailing n = false := by
      simp only [isLeading, isTrailing, decide_eq_true_eq, decide_eq_false_iff_not] at *
      omega
    simp only [code?] at spelled spelled'
    simp [scanText, spelled, leading, notTrailing, spelled', trailing, ih, TextScan.cons]

/-! ## Numbers -/

def Undigit (t : List Char) : Prop := ∀ c ∈ t.head?, c.isDigit = false

theorem takeDigits_undigit {t : List Char} (h : Undigit t) : takeDigits (t.map .char) = [] := by
  cases t with
  | nil => rfl
  | cons c t => simp [takeDigits, digit?, h c (by simp)]

theorem takeDigits_digits {t : List Char} {ds : List Nat} (h : Digits t ds) {rest : List Char}
    (hrest : Undigit rest) : takeDigits ((t ++ rest).map .char) = ds := by
  rw [h.values]
  have digits := h.isDigit
  clear h
  induction t with
  | nil => exact takeDigits_undigit hrest
  | cons c t ih =>
    have hc : c.isDigit = true := digits c (List.mem_cons_self ..)
    have ih := ih fun c h => digits c (List.mem_cons_of_mem _ h)
    simp only [List.cons_append, List.map_cons, takeDigits, digit?, hc, if_true, ih]

theorem drop_digits {t : List Char} {ds : List Nat} (h : Digits t ds) (rest : List Char) :
    ((t ++ rest).map Symbol.char).drop ds.length = rest.map .char := by
  rw [h.values, List.length_map, List.map_append, List.drop_left' (List.length_map ..)]

theorem Digits.ne_nil {t : List Char} {ds : List Nat} (h : Digits t ds) : ds ≠ [] := by
  rw [h.values]
  exact fun hnil => h.nonempty (List.map_eq_nil_iff.mp hnil)

/-- Neither more of the number nor a fraction or an exponent comes next. -/
structure EndsNumber (t : List Char) : Prop where
  digit : Undigit t
  point : t.head? ≠ some '.'
  exponent : t.head? ≠ some 'e' ∧ t.head? ≠ some 'E'

theorem exponentSign_sign {sg t : List Char} {below : Bool} {ds : List Nat} (h : Sign sg below) (digits : Digits t ds)
    (rest : List Char) :
    exponentSign ((sg ++ t ++ rest).map .char) = (below, (t ++ rest).map .char) := by
  cases h with
  | none =>
    obtain ⟨c, t, rfl⟩ := List.exists_cons_of_ne_nil digits.nonempty
    have hc : c.isDigit = true := digits.isDigit c (List.mem_cons_self ..)
    have plus : c ≠ '+' := by rintro rfl; exact absurd hc (by decide)
    have minus : c ≠ '-' := by rintro rfl; exact absurd hc (by decide)
    simp [exponentSign, plus, minus]
  | plus => rfl
  | minus => rfl

section
variable {rest : List Char} (hrest : EndsNumber rest) (place : Nat)
include hrest

theorem spellExponent_exponent {t : List Char} {e : Option (Bool × List Nat)} (h : Exponent t e) :
    ∃ last, spellExponent place ((t ++ rest).map .char) = .ok (e, last, rest.map .char) := by
  cases h with
  | none =>
    refine ⟨place, ?_⟩
    cases rest with
    | nil => rfl
    | cons c rest =>
      have := hrest.exponent
      simp_all [spellExponent]
  | @some c sg below t ds letter sign digits =>
    have sign := exponentSign_sign sign digits rest
    have taken := takeDigits_digits digits hrest.digit
    have dropped := drop_digits digits rest
    obtain ⟨d, ds, rfl⟩ := List.exists_cons_of_ne_nil digits.ne_nil
    simp only [List.cons_append, List.map_cons, spellExponent, letter, if_true, sign, taken, dropped]
    exact ⟨_, rfl⟩

theorem undigit_exponent {e : List Char} {x : Option (Bool × List Nat)} (he : Exponent e x) : Undigit (e ++ rest) := by
  cases he with
  | none => exact hrest.digit
  | some letter => rcases letter with rfl | rfl <;> simp [Undigit]

theorem undigit_fraction {f e : List Char} {ds : Option (List Nat)} {x : Option (Bool × List Nat)}
    (hf : Fraction f ds) (he : Exponent e x) : Undigit (f ++ (e ++ rest)) := by
  cases hf with
  | none => exact undigit_exponent hrest he
  | some => simp [Undigit]

theorem spellFraction_fraction {f e : List Char} {ds : Option (List Nat)} {x : Option (Bool × List Nat)}
    (h : Fraction f ds) (he : Exponent e x) :
    ∃ last, spellFraction place ((f ++ (e ++ rest)).map .char) = .ok (ds, last, (e ++ rest).map .char) := by
  cases h with
  | none =>
    refine ⟨place, ?_⟩
    have noPoint : (e ++ rest).head? ≠ some '.' := by
      cases he with
      | none => exact hrest.point
      | some letter => rcases letter with rfl | rfl <;> simp
    cases h : e ++ rest with
    | nil => rfl
    | cons c t =>
      rw [h] at noPoint
      simp_all [spellFraction]
  | @some t ds digits =>
    have taken := takeDigits_digits digits (undigit_exponent hrest he)
    have dropped := drop_digits digits (e ++ rest)
    obtain ⟨d, ds, rfl⟩ := List.exists_cons_of_ne_nil digits.ne_nil
    simp only [List.cons_append, List.map_cons, spellFraction, taken, dropped]
    exact ⟨_, rfl⟩

theorem spellNumber_magnitude {negative : Bool} {t : List Char} {s : Spelling} (h : Magnitude negative t s) :
    ∃ last, spellNumber negative place ((t ++ rest).map .char) = .ok (s, last, rest.map .char) := by
  obtain @⟨w, whole, f, fraction, e, exponent, digits, zero, hf, he⟩ := h
  have taken := takeDigits_digits digits (undigit_fraction hrest hf he)
  have dropped := drop_digits digits (f ++ (e ++ rest))
  obtain ⟨p, hfraction⟩ := spellFraction_fraction hrest (place + whole.length) hf he
  obtain ⟨last, hexponent⟩ := spellExponent_exponent hrest p he
  have hwhole : spellWhole place ((w ++ (f ++ (e ++ rest))).map .char) =
      .ok (whole, place + whole.length, (f ++ (e ++ rest)).map .char) := by
    obtain ⟨d, ds, rfl⟩ := List.exists_cons_of_ne_nil digits.ne_nil
    simp only [spellWhole, taken]
    rw [← dropped]
    match d, ds, zero with
    | 0, [], _ => rfl
    | 0, _ :: _, zero => exact absurd (zero rfl) (by simp)
    | _ + 1, _, _ => rfl
  refine ⟨last, ?_⟩
  simp only [List.append_assoc, spellNumber, hwhole, hfraction, hexponent, bind, Except.bind, pure, Except.pure]

end

/-- Where a number ends matters only if it has no value. -/
theorem Spelling.value_ok {s : Spelling} {n : Number} (h : s.value 0 = .ok n) (last : Nat) : s.value last = .ok n := by
  simp only [Spelling.value] at h ⊢
  split at h <;> split at h <;> grind

/-! ## Tokens -/

/-- With `rest` after it, the text `t` makes tokens of these kinds. -/
def Yields (t rest : List Char) (kinds : List Kind) : Prop :=
  ∀ fuel place, (t ++ rest).length ≤ fuel → ∃ tokens fuel' place',
    tokens.map (·.kind) = kinds ∧ rest.length ≤ fuel' ∧
      scan fuel place ((t ++ rest).map .char) = tokens ++ scan fuel' place' (rest.map .char)

namespace Yields

theorem nil (rest : List Char) : Yields [] rest [] :=
  fun fuel place h => ⟨[], fuel, place, rfl, h, rfl⟩

theorem append {t t' rest : List Char} {ks ks' : List Kind} (h : Yields t (t' ++ rest) ks)
    (h' : Yields t' rest ks') : Yields (t ++ t') rest (ks ++ ks') := by
  intro fuel place hfuel
  rw [List.append_assoc] at hfuel ⊢
  obtain ⟨ts, fuel, place, hts, hfuel, e⟩ := h fuel place hfuel
  obtain ⟨ts', fuel, place, hts', hfuel, e'⟩ := h' fuel place hfuel
  exact ⟨ts ++ ts', fuel, place, by rw [List.map_append, hts, hts'], hfuel, by rw [e, e', List.append_assoc]⟩

theorem blanks {b : List Char} (h : Blanks b) (rest : List Char) : Yields b rest [] := by
  intro fuel place hfuel
  induction b generalizing fuel place with
  | nil => exact ⟨[], fuel, place, rfl, hfuel, rfl⟩
  | cons c b ih =>
    have hc : isSpace c = true := h c (List.mem_cons_self ..)
    simp only [List.cons_append, List.length_cons] at hfuel
    obtain ⟨fuel, rfl⟩ : ∃ f, fuel = f + 1 := ⟨fuel - 1, by omega⟩
    obtain ⟨ts, fuel', place', hts, hfuel', e⟩ :=
      ih (fun c h' => h c (List.mem_cons_of_mem _ h')) fuel (place + 1) (by omega)
    refine ⟨ts, fuel', place', hts, hfuel', ?_⟩
    simp only [List.cons_append, List.map_cons, scan, hc, if_true]
    exact e

theorem token {c : Char} {t rest : List Char} {k : Kind} (space : isSpace c = false)
    (h : ∀ first, ∃ last, ofChar first c ((t ++ rest).map .char) = (⟨k, first, last⟩, rest.map .char)) :
    Yields (c :: t) rest [k] := by
  intro fuel place hfuel
  simp only [List.cons_append, List.length_cons, List.length_append] at hfuel
  obtain ⟨fuel, rfl⟩ : ∃ f, fuel = f + 1 := ⟨fuel - 1, by omega⟩
  obtain ⟨last, h⟩ := h place
  refine ⟨[⟨k, place, last⟩], fuel, last, rfl, by omega, ?_⟩
  simp only [List.cons_append, List.map_cons, scan, space, h, if_false, Bool.false_eq_true, List.nil_append]

end Yields

section
variable (rest : List Char)

theorem yields_openList : Yields ['['] rest [.openList] := .token rfl fun first => ⟨first + 1, rfl⟩

theorem yields_closeList : Yields [']'] rest [.closeList] := .token rfl fun first => ⟨first + 1, rfl⟩

theorem yields_openObject : Yields ['\x7b'] rest [.openObject] := .token rfl fun first => ⟨first + 1, rfl⟩

theorem yields_closeObject : Yields ['\x7d'] rest [.closeObject] := .token rfl fun first => ⟨first + 1, rfl⟩

theorem yields_comma : Yields [','] rest [.comma] := .token rfl fun first => ⟨first + 1, rfl⟩

theorem yields_colon : Yields [':'] rest [.colon] := .token rfl fun first => ⟨first + 1, rfl⟩

theorem ofWord_word (k : Kind) (first place : Nat) (word : List Char) :
    ∃ last, ofWord k first place word ((word ++ rest).map .char) = (⟨k, first, last⟩, rest.map .char) := by
  induction word generalizing place with
  | nil => exact ⟨place, rfl⟩
  | cons c word ih =>
    simp only [List.cons_append, List.map_cons, ofWord, if_true]
    exact ih (place + 1)

theorem yields_null : Yields "null".toList rest [.null] := .token rfl fun _ => ofWord_word rest ..

theorem yields_true : Yields "true".toList rest [.bool true] := .token rfl fun _ => ofWord_word rest ..

theorem yields_false : Yields "false".toList rest [.bool false] := .token rfl fun _ => ofWord_word rest ..

theorem yields_text {t s : List Char} (h : Spells t s) :
    Yields ('"' :: t ++ ['"']) rest [.text (.ok (String.ofList s))] := by
  rw [List.cons_append]
  refine .token rfl fun first => ?_
  obtain ⟨last, scanned⟩ := scanText_spells h (rest.map .char) (first + 1)
  refine ⟨last, ?_⟩
  rw [List.append_assoc, List.map_append]
  show ofTextScan first (scanText none (first + 1) (t.map .char ++ .char '"' :: rest.map .char)) = _
  rw [scanned]
  simp only [ofTextScan, TextScan.value, Text.Utf8.mapM_char?]

end

theorem ofChar_digit {c : Char} (h : c.isDigit = true) (first : Nat) (ss : List Symbol) :
    ofChar first c ss = ofNumber false first first (.char c :: ss) := by
  have other : ∀ d : Char, d.isDigit = false → c ≠ d := fun d hd e => by rw [e, hd] at h; contradiction
  simp only [ofChar, other _ (show '['.isDigit = false from rfl), other _ (show ']'.isDigit = false from rfl),
    other _ (show '\x7b'.isDigit = false from rfl), other _ (show '\x7d'.isDigit = false from rfl),
    other _ (show ','.isDigit = false from rfl), other _ (show ':'.isDigit = false from rfl),
    other _ (show 'n'.isDigit = false from rfl), other _ (show 't'.isDigit = false from rfl),
    other _ (show 'f'.isDigit = false from rfl), other _ (show '"'.isDigit = false from rfl),
    other _ (show '-'.isDigit = false from rfl), h, if_true, if_false]

theorem yields_number {t rest : List Char} (hrest : EndsNumber rest) {s : Spelling} (h : Numeral t s) {n : Number}
    (value : s.value 0 = .ok n) : Yields t rest [.number (.ok n)] := by
  cases h with
  | unsigned h =>
    obtain ⟨c, t, rfl, digit⟩ : ∃ c t', t = c :: t' ∧ c.isDigit = true := by
      obtain @⟨w, _, f, _, e, _, digits, _⟩ := h
      obtain ⟨c, w, rfl⟩ := List.exists_cons_of_ne_nil digits.nonempty
      exact ⟨c, w ++ f ++ e, rfl, digits.isDigit c (List.mem_cons_self ..)⟩
    have space : isSpace c = false := by
      simp only [isSpace, decide_eq_false_iff_not]
      rintro (rfl | rfl | rfl | rfl) <;> contradiction
    refine .token space fun first => ?_
    obtain ⟨last, spelled⟩ := spellNumber_magnitude hrest first h
    refine ⟨last, ?_⟩
    rw [List.cons_append, List.map_cons] at spelled
    simp only [ofChar_digit digit, ofNumber, spelled, Spelling.value_ok value]
  | @negative t _ h =>
    refine .token rfl fun first => ?_
    obtain ⟨last, spelled⟩ := spellNumber_magnitude hrest (first + 1) h
    refine ⟨last, ?_⟩
    show ofNumber true first (first + 1) ((t ++ rest).map .char) = _
    simp only [ofNumber, spelled, Spelling.value_ok value]

/-! ## Documents -/

/-- The text is over, or a blank, a comma or a closing bracket comes next. -/
def Delimited (t : List Char) : Prop := ∀ c ∈ t.head?, isSpace c ∨ c = ',' ∨ c = ']' ∨ c = '\x7d'

theorem Delimited.endsNumber {t : List Char} (h : Delimited t) : EndsNumber t := by
  cases t with
  | nil => exact ⟨by simp [Undigit], by simp, by simp⟩
  | cons c t =>
    have hc := h c rfl
    simp only [isSpace, decide_eq_true_eq] at hc
    rcases hc with (rfl | rfl | rfl | rfl) | rfl | rfl | rfl <;>
      exact ⟨by simp [Undigit], by simp, by simp⟩

theorem Delimited.blanks {b rest : List Char} (hb : Blanks b) (h : Delimited rest) : Delimited (b ++ rest) := by
  cases b with
  | nil => exact h
  | cons c b => exact fun d hd => .inl (Option.mem_some.mp hd ▸ hb c (List.mem_cons_self ..))

theorem yields_written {part : Part} {t : List Char} (h : Written part t) :
    ∀ {rest : List Char}, Delimited rest → Yields t rest part.kinds := by
  induction h with
  | null => intro rest _; exact yields_null rest
  | true => intro rest _; exact yields_true rest
  | false => intro rest _; exact yields_false rest
  | number h value => intro rest hrest; exact yields_number hrest.endsNumber h value
  | text h => intro rest _; exact yields_text rest h
  | emptyList hb => intro rest _; exact (yields_openList _).append ((Yields.blanks hb _).append (yields_closeList rest))
  | list _ ih =>
    intro rest _
    exact (yields_openList _).append ((ih (by simp [Delimited])).append (yields_closeList rest))
  | emptyObject hb =>
    intro rest _
    exact (yields_openObject _).append ((Yields.blanks hb _).append (yields_closeObject rest))
  | object _ ih =>
    intro rest _
    exact (yields_openObject _).append ((ih (by simp [Delimited])).append (yields_closeObject rest))
  | element hb _ hb' ih =>
    intro rest hrest
    have := ((Yields.blanks hb _).append (ih (hrest.blanks hb'))).append (Yields.blanks hb' rest)
    simpa [Part.kinds] using this
  | lastElement _ ih => exact ih
  | elements _ _ ih ih' =>
    intro rest hrest
    exact (ih (by simp [Delimited])).append ((yields_comma _).append (ih' hrest))
  | member hb hkey hb' _ ih =>
    intro rest hrest
    have := ((Yields.blanks hb _).append ((yields_text _ hkey).append (Yields.blanks hb' _))).append
      ((yields_colon _).append (ih hrest))
    simpa [Part.kinds] using this
  | lastMember _ ih => exact ih
  | members _ _ ih ih' =>
    intro rest hrest
    exact (ih (by simp [Delimited])).append ((yields_comma _).append (ih' hrest))

end JsonService.Json
