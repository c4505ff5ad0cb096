import JsonService.Proofs.Text.Letters
import JsonService.Uuid

/-!
# UUIDs read back

A UUID is read back from its hyphenated text, so the text tells it from every other UUID. It is read from other texts,
too: its digits may be small or large, and there are three more forms.

**Results.**
* `ofSimple?_digits`, `ofHyphenated?_groups`: digits are read back, with or without hyphens between them.
* `parse?_render`, `render_injective`.
* `digit?_eq_some`: a digit is read in either case, and nothing else is.
* `ofHyphenated?_eq_some`, `parse?_eq_some`: the texts from which a UUID is read are those of the grammar `Written`.
* `written_render`, `written_bare`: two of them, its own text and its digits alone.
-/
namespace JsonService.Uuid

theorem digit?_digitChar (d : Fin 16) : digit? (digitChar d) = some d := by
  have all : ∀ d : Fin 16, digit? (digitChar d) = some d := by decide +kernel
  exact all d

theorem mapM_digit? (ds : List (Fin 16)) : (ds.map digitChar).mapM digit? = some ds := by
  induction ds with
  | nil => rfl
  | cons d ds ih => simp [digit?_digitChar, ih]

/-- Digits without anything between them are read back. -/
theorem ofSimple?_digits (u : Uuid) : ofSimple? (u.digits.map digitChar) = some u := by
  rw [ofSimple?, mapM_digit?]
  simp [u.length_digits]

theorem ofHyphenated?_groups {a b c d e : List Char} (ha : a.length = 8) (hb : b.length = 4) (hc : c.length = 4)
    (hd : d.length = 4) (he : e.length = 12) :
    ofHyphenated? (a ++ '-' :: b ++ '-' :: c ++ '-' :: d ++ '-' :: e) = ofSimple? (a ++ b ++ c ++ d ++ e) := by
  have length : (a ++ '-' :: b ++ '-' :: c ++ '-' :: d ++ '-' :: e).length = 36 := by simp [ha, hb, hc, hd, he]
  have hyphens : hyphenPlaces.all
      (fun i => (a ++ '-' :: b ++ '-' :: c ++ '-' :: d ++ '-' :: e)[i]? = some '-') = true := by
    simp [hyphenPlaces, List.getElem?_append, List.getElem?_cons, ha, hb, hc, hd]
  rw [ofHyphenated?, if_pos ⟨length, hyphens⟩]
  congr 1
  simp (disch := omega) [List.drop_append, List.drop_of_length_le, ha, hb, hc, hd]

/-- The hyphenated text of a UUID is read back. -/
theorem parse?_render (u : Uuid) : parse? u.render = some u := by
  obtain ⟨cs, hcs⟩ : ∃ cs, cs = u.digits.map digitChar := ⟨_, rfl⟩
  have length : cs.length = 32 := by rw [hcs, List.length_map, u.length_digits]
  have groups : cs.take 8 ++ (cs.drop 8).take 4 ++ (cs.drop 12).take 4 ++ (cs.drop 16).take 4 ++ cs.drop 20 = cs := by
    have next : ∀ n m : Nat, cs.take n ++ (cs.drop n).take m = cs.take (n + m) := fun n m => List.take_add.symm
    simp only [next, List.take_append_drop]
  have hyphenated := ofHyphenated?_groups (a := cs.take 8) (b := (cs.drop 8).take 4) (c := (cs.drop 12).take 4)
    (d := (cs.drop 16).take 4) (e := cs.drop 20) (by simp [length]) (by simp [length]) (by simp [length])
    (by simp [length]) (by simp [length])
  rw [groups, hcs, ofSimple?_digits] at hyphenated
  simp only [parse?, render, String.toList_ofList, ← hcs]
  rw [if_neg, if_pos]
  · simpa [← hcs] using hyphenated
  · simp [length]
  · simp [length]

theorem render_injective {u v : Uuid} (h : u.render = v.render) : u = v := by
  have := parse?_render u
  rw [h, parse?_render] at this
  exact (Option.some.inj this).symm

/-! ## All forms -/

/-- Characters that are the digits of a UUID, each small or large. -/
def Bare (u : Uuid) (cs : List Char) : Prop := cs.map Char.toLower = u.digits.map digitChar

/-- Five groups of digits with hyphens between them. -/
def Hyphenated (u : Uuid) (cs : List Char) : Prop :=
  ∃ a b c d e : List Char, (a.length = 8 ∧ b.length = 4 ∧ c.length = 4 ∧ d.length = 4 ∧ e.length = 12) ∧
    cs = a ++ '-' :: b ++ '-' :: c ++ '-' :: d ++ '-' :: e ∧ Bare u (a ++ b ++ c ++ d ++ e)

/-- The four forms of a UUID. -/
inductive Written (u : Uuid) : List Char → Prop
  | bare {cs : List Char} (digits : Bare u cs) : Written u cs
  | hyphenated {cs : List Char} (groups : Hyphenated u cs) : Written u cs
  /-- Within braces. -/
  | braced {cs : List Char} (groups : Hyphenated u cs) : Written u ('\x7b' :: cs ++ ['\x7d'])
  /-- Behind the mark of a name, in any case. -/
  | named {mark cs : List Char} (small : mark.map Char.toLower = "urn:uuid:".toList) (groups : Hyphenated u cs) :
    Written u (mark ++ cs)

/-- A digit is read in either case, and nothing else is. -/
theorem digit?_eq_some {c : Char} {d : Fin 16} : digit? c = some d ↔ c.toLower = digitChar d := by
  by_cases small : c.toNat < 128
  · have all : ∀ n ∈ List.range 128, ∀ d : Fin 16,
        digit? (Char.ofNat n) = some d ↔ (Char.ofNat n).toLower = digitChar d := by decide +kernel
    exact Text.ascii_forall (P := fun c => ∀ d : Fin 16, digit? c = some d ↔ c.toLower = digitChar d) all small d
  · have above : ∀ m : Char, m.toNat < 128 → ¬c ≤ m := fun m hm h => small (Nat.lt_of_le_of_lt h hm)
    have unread : digit? c = none := by
      rw [digit?, Text.hexDigit?, if_neg (fun h => above '9' (by decide) h.2),
        if_neg (fun h => above 'f' (by decide) h.2), if_neg (fun h => above 'F' (by decide) h.2)]
      rfl
    have ascii : ∀ d : Fin 16, (digitChar d).toNat < 128 := by decide
    have letters : ∀ n ∈ List.range' 65 26, (Char.ofNat n).toNat < 128 := by decide +kernel
    rw [unread]
    refine ⟨nofun, fun h => ?_⟩
    rcases Text.toLower_cases c with same | ⟨n, hn, rfl⟩
    · exact absurd (ascii d) (h ▸ same.symm ▸ small)
    · exact absurd (letters n hn) small

theorem mapM_digit?_eq_some {cs : List Char} {ds : List (Fin 16)} :
    cs.mapM digit? = some ds ↔ cs.map Char.toLower = ds.map digitChar := by
  induction cs generalizing ds with
  | nil => cases ds <;> simp
  | cons c cs ih =>
    cases ds with
    | nil => simp [List.mapM_cons, Option.bind_eq_some_iff]
    | cons d ds => simp [List.mapM_cons, Option.bind_eq_some_iff, digit?_eq_some, ih]

theorem ofSimple?_eq_some {cs : List Char} {u : Uuid} : ofSimple? cs = some u ↔ Bare u cs := by
  rw [Bare, ← mapM_digit?_eq_some, ofSimple?, Option.bind_eq_some_iff]
  constructor
  · rintro ⟨ds, read, h⟩
    split at h
    · cases h
      exact read
    · cases h
  · exact fun read => ⟨u.digits, read, dif_pos u.length_digits⟩

theorem groups_of_hyphens {cs : List Char}
    (hyphens : hyphenPlaces.all (fun i => cs[i]? = some '-') = true) :
    cs = cs.take 8 ++ '-' :: (cs.drop 9).take 4 ++ '-' :: (cs.drop 14).take 4 ++ '-' :: (cs.drop 19).take 4 ++
      '-' :: cs.drop 24 := by
  have hyphen : ∀ i ∈ hyphenPlaces, '-' :: cs.drop (i + 1) = cs.drop i := by
    intro i hi
    obtain ⟨inside, found⟩ := List.getElem?_eq_some_iff.mp (of_decide_eq_true (List.all_eq_true.mp hyphens i hi))
    rw [List.drop_eq_getElem_cons inside, found]
  have group : ∀ n m : Nat, (cs.drop n).take m ++ cs.drop (n + m) = cs.drop n := by
    intro n m
    rw [← List.drop_drop, List.take_append_drop]
  simp only [List.append_assoc, List.cons_append]
  rw [hyphen 23 (by decide), group 19 4, hyphen 18 (by decide), group 14 4, hyphen 13 (by decide), group 9 4,
    hyphen 8 (by decide), List.take_append_drop]

theorem ofHyphenated?_eq_some {cs : List Char} {u : Uuid} : ofHyphenated? cs = some u ↔ Hyphenated u cs := by
  constructor
  · intro h
    rw [ofHyphenated?] at h
    split at h
    · next shape =>
      refine ⟨cs.take 8, (cs.drop 9).take 4, (cs.drop 14).take 4, (cs.drop 19).take 4, cs.drop 24, ?_,
        groups_of_hyphens shape.2, ofSimple?_eq_some.mp h⟩
      simp [shape.1]
    · cases h
  · rintro ⟨a, b, c, d, e, ⟨ha, hb, hc, hd, he⟩, rfl, digits⟩
    rw [ofHyphenated?_groups ha hb hc hd he, ofSimple?_eq_some.mpr digits]

theorem Hyphenated.length {u : Uuid} {cs : List Char} (h : Hyphenated u cs) : cs.length = 36 := by
  obtain ⟨a, b, c, d, e, ⟨ha, hb, hc, hd, he⟩, rfl, -⟩ := h
  simp [ha, hb, hc, hd, he]

theorem Bare.length {u : Uuid} {cs : List Char} (h : Bare u cs) : cs.length = 32 := by
  have := congrArg List.length h
  rwa [List.length_map, List.length_map, u.length_digits] at this

/-- A UUID is read from its four forms, and from nothing else. -/
theorem parse?_eq_some {s : String} {u : Uuid} : parse? s = some u ↔ Written u s.toList := by
  simp only [parse?]
  generalize s.toList = cs
  constructor
  · intro h
    split at h
    · exact .bare (ofSimple?_eq_some.mp h)
    split at h
    · exact .hyphenated (ofHyphenated?_eq_some.mp h)
    split at h
    · next braces =>
      obtain ⟨length, opening, closing⟩ := braces
      obtain ⟨rest, rfl⟩ := List.head?_eq_some_iff.mp opening
      obtain ⟨_ | ⟨_, inner⟩, closed⟩ := List.getLast?_eq_some_iff.mp closing
      · rw [closed] at length
        cases length
      · rw [List.cons_append, List.cons.injEq] at closed
        obtain ⟨-, rfl⟩ := closed
        rw [List.drop_succ_cons, List.drop_zero, List.dropLast_concat] at h
        exact .braced (ofHyphenated?_eq_some.mp h)
    split at h
    · next mark =>
      rw [← List.take_append_drop 9 cs]
      exact .named mark.2 (ofHyphenated?_eq_some.mp h)
    · cases h
  · intro h
    cases h with
    | bare digits => rw [if_pos digits.length, ofSimple?_eq_some.mpr digits]
    | hyphenated groups =>
      rw [if_neg (by simp [groups.length]), if_pos groups.length, ofHyphenated?_eq_some.mpr groups]
    | @braced cs groups =>
      have length : ('\x7b' :: cs ++ ['\x7d']).length = 38 := by simp [groups.length]
      have closing : ('\x7b' :: cs ++ ['\x7d']).getLast? = some '\x7d' := by rw [List.getLast?_append]; rfl
      rw [length, if_neg (by decide), if_neg (by decide), if_pos ⟨rfl, rfl, closing⟩, List.cons_append,
        List.drop_succ_cons, List.drop_zero, List.dropLast_concat, ofHyphenated?_eq_some.mpr groups]
    | @named mark cs small groups =>
      have short : mark.length = 9 := by simpa using congrArg List.length small
      have length : (mark ++ cs).length = 45 := by simp [short, groups.length]
      have marked : ((mark ++ cs).take 9).map Char.toLower = urn := by
        rw [List.take_left' short]
        exact small
      rw [length, if_neg (by decide), if_neg (by decide), if_neg (fun h => absurd h.1 (by decide)),
        if_pos ⟨rfl, marked⟩, List.drop_left' short, ofHyphenated?_eq_some.mpr groups]

def bare (u : Uuid) : String := String.ofList (u.digits.map digitChar)

theorem written_bare (u : Uuid) : Written u u.bare.toList := by
  have small : ∀ d : Fin 16, (digitChar d).toLower = digitChar d := by decide
  refine .bare ?_
  rw [Bare, bare, String.toList_ofList, List.map_map]
  exact List.map_congr_left fun d _ => small d

theorem render_ne_bare (u v : Uuid) : u.render ≠ v.bare := by
  intro same
  have length := congrArg List.length (String.toList_inj.mpr same)
  simp [render, bare, u.length_digits, v.length_digits] at length

theorem written_render (u : Uuid) : Written u u.render.toList := parse?_eq_some.mp (parse?_render u)

end JsonService.Uuid
