import JsonService.Duration
import JsonService.Proofs.Text.Digits

/-!
# Durations read back from their text

The text of a duration is a line of amounts, of which those of zero are left out. A reader adds them up from nothing. So
the question is what an amount adds (`addWhole?_value`), that the amounts of a duration come to its value, and that no
sum on the way is too large: each is part of that value, which fits.

**Results.**
* `addAmount?_text`, `addAmounts?_line`: one amount is read back, and so is a line of them.
* `parse?_render`.
-/
namespace JsonService.Duration

/-! ## Values -/

/-- All of a duration in nanoseconds. -/
def value (d : Duration) : Nat := d.seconds.toNat * 1000000000 + d.nanos.val

/-- No duration is as long as this. -/
def limit : Nat := UInt64.size * 1000000000

theorem value_lt (d : Duration) : d.value < limit := by
  have seconds := d.seconds.toNat_lt_size
  have nanos := d.nanos.isLt
  simp only [value, limit, UInt64.size] at *
  omega

theorem value_inj {d d' : Duration} (h : d.value = d'.value) : d = d' := by
  obtain ⟨s, n⟩ := d
  obtain ⟨s', n'⟩ := d'
  simp only [value] at h
  have nanos : n = n' := Fin.ext (by omega)
  have seconds : s = s' := UInt64.toNat_inj.mp (by omega)
  rw [nanos, seconds]

@[simp] theorem value_zero : zero.value = 0 := rfl

def Scale.size : Scale → Nat
  | .nanos n => n
  | .seconds n => n * 1000000000

theorem fitting?_of_lt {n : Nat} (h : n < UInt64.size) : fitting? n = some n := if_pos h

theorem add?_value {d : Duration} (seconds nanos : Nat) (small : nanos < 1000000000)
    (fits : d.value + seconds * 1000000000 + nanos < limit) :
    ∃ d', d.add? seconds nanos = some d' ∧ d'.value = d.value + seconds * 1000000000 + nanos := by
  have below := d.nanos.isLt
  simp only [value, limit, UInt64.size] at fits
  have nanosFit : d.nanos.val + nanos < UInt64.size := by simp only [UInt64.size]; omega
  have secondsFit : d.seconds.toNat + seconds + (d.nanos.val + nanos) / 1000000000 < UInt64.size := by
    simp only [UInt64.size]
    omega
  refine ⟨_, by rw [add?, fitting?_of_lt nanosFit, Option.bind_eq_bind, Option.bind_some,
    fitting?_of_lt secondsFit]; rfl, ?_⟩
  simp only [value, UInt64.toNat_ofNat_of_lt' secondsFit, Fin.val_ofNat]
  omega

/-! ## Amounts -/

/-- A name of letters that is read as a scale. -/
structure Names (unit : String) (scale : Scale) : Prop where
  scale : scale? unit.toList = some scale
  letters : ∀ c ∈ unit.toList, inUnit c = true

theorem names {unit : String} {scale : Scale} (found : (units.find? (·.1.contains unit)).map (·.2) = some scale)
    (letters : unit.toList.all inUnit = true) : Names unit scale :=
  ⟨by rw [scale?, String.ofList_toList, found], List.all_eq_true.mp letters⟩

theorem Names.ne_nil {unit : String} {scale : Scale} (h : Names unit scale) : unit.toList ≠ [] := by
  intro empty
  have found := h.scale
  rw [empty] at found
  cases found

/-- So many of a unit. -/
structure Amount where
  count : Nat
  unit : String
  scale : Scale

namespace Amount

/-- The digits of the count, and right after them the unit. -/
def text (a : Amount) : String := s!"{a.count}{a.unit}"

def value (a : Amount) : Nat := a.count * a.scale.size

theorem value_seconds (count n : Nat) (unit : String) :
    value ⟨count, unit, .seconds n⟩ = count * n * 1000000000 := (Nat.mul_assoc ..).symm

theorem value_nanos (count n : Nat) (unit : String) : value ⟨count, unit, .nanos n⟩ = count * n := rfl

/-- The unit is read as its scale, and what is written in parts of a second is less than one. -/
structure Sound (a : Amount) : Prop where
  names : Names a.unit a.scale
  fits : a.count < UInt64.size
  small : ∀ n, a.scale = .nanos n → a.value < 1000000000

end Amount

theorem addWhole?_value {d : Duration} {a : Amount} (sound : a.Sound) (fits : d.value + a.value < limit) :
    ∃ d', d.addWhole? a.count a.scale = some d' ∧ d'.value = d.value + a.value := by
  obtain ⟨count, unit, scale⟩ := a
  cases scale with
  | nanos n =>
    have small : count * n < 1000000000 := sound.small n rfl
    have fitting : fitting? (count * n) = some (count * n) :=
      fitting?_of_lt (Nat.lt_trans small (by decide))
    rw [Amount.value_nanos] at fits ⊢
    obtain ⟨d', added, value⟩ := add?_value 0 (count * n) small (by rwa [Nat.zero_mul, Nat.add_zero])
    exact ⟨d', by simpa [addWhole?, fitting] using added, by rw [value, Nat.zero_mul, Nat.add_zero]⟩
  | seconds n =>
    rw [Amount.value_seconds] at fits ⊢
    have fitting : fitting? (count * n) = some (count * n) := by
      refine fitting?_of_lt ?_
      simp only [limit, UInt64.size] at fits ⊢
      omega
    obtain ⟨d', added, value⟩ := add?_value (count * n) 0 (by decide) (by rw [Nat.add_zero]; exact fits)
    exact ⟨d', by simpa [addWhole?, fitting] using added, by rw [value, Nat.add_zero]⟩

/-- What amounts come to. -/
def total : List Amount → Nat
  | [] => 0
  | a :: as => a.value + total as

theorem addAll_value {as : List Amount} (sound : ∀ a ∈ as, a.Sound) {d : Duration} (fits : d.value + total as < limit) :
    ∃ d', as.foldlM (fun d a => d.addWhole? a.count a.scale) d = some d' ∧ d'.value = d.value + total as := by
  induction as generalizing d with
  | nil => exact ⟨d, rfl, (Nat.add_zero _).symm⟩
  | cons a as ih =>
    obtain ⟨sound_a, sound⟩ := List.forall_mem_cons.mp sound
    rw [total, ← Nat.add_assoc] at fits ⊢
    obtain ⟨d₁, added, value₁⟩ := addWhole?_value sound_a (Nat.lt_of_le_of_lt (Nat.le_add_right ..) fits)
    obtain ⟨d', all, value⟩ := ih sound (by rw [value₁]; exact fits)
    exact ⟨d', by rw [List.foldlM_cons, added]; exact all, by rw [value, value₁]⟩

/-! ## Reading one amount -/

theorem takeDigits_toDigits (n : Nat) {rest : List Char}
    (hrest : Text.Stops (fun c => c.isDigit || Text.isBlank c) rest) :
    takeDigits (Nat.toDigits 10 n ++ rest) = (Nat.toDigits 10 n, rest) := by
  have digits := Text.isDigit_toDigits n
  have inNumber : ∀ c ∈ Nat.toDigits 10 n, (c.isDigit || Text.isBlank c) = true :=
    fun c hc => by rw [digits c hc, Bool.true_or]
  simp only [takeDigits, hrest.takeWhile_append inNumber, hrest.dropWhile_append inNumber,
    List.filter_eq_self.mpr digits]

theorem Amount.toList_text (a : Amount) : a.text.toList = Nat.toDigits 10 a.count ++ a.unit.toList := by
  have unit : toString a.unit = a.unit := rfl
  simp [Amount.text, Nat.toList_repr, unit]

/-- One amount is read back, and what follows it is left. -/
theorem addAmount?_text {a : Amount} (sound : a.Sound) (d : Duration) {rest : List Char}
    (hrest : Text.Stops inUnit rest) :
    d.addAmount? (a.text.toList ++ rest) = (d.addWhole? a.count a.scale).map (·, rest) := by
  obtain ⟨c, cs, name⟩ := List.exists_cons_of_ne_nil sound.names.ne_nil
  have letter := sound.names.letters c (name ▸ List.mem_cons_self ..)
  have point : c ≠ '.' := by rintro rfl; exact absurd letter (by decide)
  have ends : Text.Stops (fun c => c.isDigit || Text.isBlank c) (a.unit.toList ++ rest) := by
    rw [name]
    refine Text.stops_cons.mpr ?_
    rw [Text.not_digit (by decide) letter, Text.not_blank (by decide) letter, Bool.or_self]
  have number := takeDigits_toDigits a.count ends
  have whole : takeFraction? (a.unit.toList ++ rest) = some (none, a.unit.toList ++ rest) := by
    rw [name, List.cons_append, takeFraction?.eq_def]
    split
    · next same => exact absurd (List.cons.inj same).1 point
    · rfl
  rw [a.toList_text, List.append_assoc, addAmount?, number]
  simp only [Text.decimal?_toDigits, fitting?_of_lt sound.fits, whole, hrest.takeWhile_append sound.names.letters,
    hrest.dropWhile_append sound.names.letters, sound.names.scale, Option.bind_eq_bind, Option.bind_some]
  cases d.addWhole? a.count a.scale <;> rfl

/-! ## Reading all amounts -/

def line (as : List Amount) : List Char := List.intercalate [' '] (as.map (·.text.toList))

theorem Amount.text_cons (a : Amount) : ∃ c cs, a.text.toList = c :: cs ∧ c.isDigit = true := by
  obtain ⟨c, cs, digits⟩ := List.exists_cons_of_ne_nil (Nat.toDigits_ne_nil (n := a.count) (b := 10))
  exact ⟨c, cs ++ a.unit.toList, by rw [a.toList_text, digits]; rfl,
    Text.isDigit_toDigits _ c (digits ▸ List.mem_cons_self ..)⟩

theorem line_cons (a : Amount) (as : List Amount) : ∃ c cs, line (a :: as) = c :: cs ∧ c.isDigit = true := by
  obtain ⟨c, cs, text, digit⟩ := a.text_cons
  cases as with
  | nil => exact ⟨c, cs, by simp [line, text], digit⟩
  | cons b bs => exact ⟨c, _, by rw [line, List.map_cons, List.map_cons, List.intercalate_cons_cons, text]; rfl, digit⟩

theorem line_cons_cons (a b : Amount) (as : List Amount) :
    line (a :: b :: as) = a.text.toList ++ ' ' :: line (b :: as) := by
  simp [line, List.intercalate_cons_cons]

theorem length_le_line (as : List Amount) : as.length ≤ (line as).length := by
  induction as with
  | nil => exact Nat.zero_le _
  | cons a as ih =>
    obtain ⟨c, cs, text, -⟩ := a.text_cons
    cases as with
    | nil => simp [line, text]
    | cons b bs =>
      simp only [line_cons_cons, List.length_append, List.length_cons] at ih ⊢
      omega

/-- A line of amounts is read back. -/
theorem addAmounts?_line {a : Amount} {as : List Amount} (sound : ∀ b ∈ a :: as, b.Sound) (d : Duration) {fuel : Nat}
    (enough : as.length < fuel) :
    d.addAmounts? fuel (line (a :: as)) = (a :: as).foldlM (fun d a => d.addWhole? a.count a.scale) d := by
  induction as generalizing a d fuel with
  | nil =>
    obtain ⟨fuel, rfl⟩ := Nat.exists_eq_succ_of_ne_zero (Nat.ne_of_gt enough)
    have last := addAmount?_text (sound a (List.mem_cons_self ..)) d Text.stops_nil
    rw [List.append_nil] at last
    have alone : line [a] = a.text.toList := by simp [line]
    rw [alone, addAmounts?, last, List.foldlM_cons]
    cases d.addWhole? a.count a.scale with
    | none => simp only [Option.map_none, Option.bind_eq_bind, Option.bind_none]
    | some d₁ =>
      simp only [Option.map_some, Option.bind_eq_bind, Option.bind_some, List.dropWhile_nil, List.isEmpty_nil, if_true,
        List.foldlM_nil]
      rfl
  | cons b bs ih =>
    obtain ⟨fuel, rfl⟩ := Nat.exists_eq_succ_of_ne_zero (Nat.ne_of_gt (Nat.zero_lt_of_lt enough))
    obtain ⟨sound_a, sound⟩ := List.forall_mem_cons.mp sound
    obtain ⟨c, cs, starts, digit⟩ := line_cons b bs
    have more : (' ' :: line (b :: bs)).dropWhile Text.isBlank = line (b :: bs) := by
      rw [List.dropWhile_cons_of_pos (by decide), starts]
      exact (Text.stops_cons.mpr (Text.not_blank_of_isDigit digit)).dropWhile
    have space : Text.Stops inUnit (' ' :: line (b :: bs)) := Text.stops_cons.mpr (by decide)
    have shorter : bs.length < fuel := Nat.lt_of_succ_lt_succ enough
    rw [line_cons_cons, addAmounts?, addAmount?_text sound_a d space, List.foldlM_cons]
    cases d.addWhole? a.count a.scale with
    | none => simp only [Option.map_none, Option.bind_eq_bind, Option.bind_none]
    | some d₁ =>
      have some : (line (b :: bs)).isEmpty = false := by rw [starts]; rfl
      simp only [Option.map_some, Option.bind_eq_bind, Option.bind_some, more, some]
      exact ih sound d₁ shorter

/-! ## The text of a duration -/

/-- An amount of a unit that gets an `s` for more than one. -/
def Amount.ofMany (count : Nat) (unit : String) (scale : Scale) : Amount :=
  ⟨count, if 1 < count then unit ++ "s" else unit, scale⟩

/-- The amounts of a duration, those of zero included. -/
def amounts (d : Duration) : List Amount :=
  let seconds := d.seconds.toNat
  let days := seconds % year % month
  let nanos := d.nanos.val
  [.ofMany (seconds / year) "year" (.seconds year), .ofMany (seconds % year / month) "month" (.seconds month),
   .ofMany (days / 86400) "day" (.seconds 86400), ⟨days % 86400 / 3600, "h", .seconds 3600⟩,
   ⟨days % 3600 / 60, "m", .seconds 60⟩, ⟨days % 60, "s", .seconds 1⟩, ⟨nanos / 1000000, "ms", .nanos 1000000⟩,
   ⟨nanos / 1000 % 1000, "us", .nanos 1000⟩, ⟨nanos % 1000, "ns", .nanos 1⟩]

def written (d : Duration) : List Amount := d.amounts.filter (·.count ≠ 0)

theorem Amount.value_ofMany (count n : Nat) (unit : String) :
    (ofMany count unit (.seconds n)).value = count * n * 1000000000 := value_seconds ..

theorem parts_eq (d : Duration) : d.parts = d.written.map Amount.text := by
  have each : ∀ as : List Amount, (as.map fun a => part a.unit a.count).filterMap id =
      (as.filter (·.count ≠ 0)).map Amount.text := by
    intro as
    induction as with
    | nil => rfl
    | cons a as ih =>
      by_cases zero : a.count = 0
      · simpa [part, zero] using ih
      · simpa [part, zero, Amount.text] using ih
  rw [written, ← each]
  simp only [parts, amounts, Amount.ofMany, partOfMany, List.map_cons, List.map_nil]

theorem sum_parts (s n : Nat) :
    s / year * year * 1000000000 + (s % year / month * month * 1000000000 +
      (s % year % month / 86400 * 86400 * 1000000000 + (s % year % month % 86400 / 3600 * 3600 * 1000000000 +
      (s % year % month % 3600 / 60 * 60 * 1000000000 + (s % year % month % 60 * 1 * 1000000000 +
      (n / 1000000 * 1000000 + (n / 1000 % 1000 * 1000 + (n % 1000 * 1 + 0)))))))) = s * 1000000000 + n := by
  simp only [year, month]
  omega

theorem total_written (d : Duration) : total d.written = d.value := by
  have all : ∀ as : List Amount, total (as.filter (·.count ≠ 0)) = total as := by
    intro as
    induction as with
    | nil => rfl
    | cons a as ih =>
      by_cases zero : a.count = 0
      · simpa [total, Amount.value, zero] using ih
      · simpa [total, zero] using ih
  -- nine amounts without their sizes, which the kernel would count out one by one
  have nine : ∀ a b c d e f g h i : Amount, total [a, b, c, d, e, f, g, h, i] =
      a.value + (b.value + (c.value + (d.value + (e.value + (f.value + (g.value + (h.value + (i.value + 0)))))))) :=
    fun _ _ _ _ _ _ _ _ _ => rfl
  rw [written, all, amounts, nine, value, ← sum_parts]
  simp only [Amount.value_ofMany, Amount.value_seconds, Amount.value_nanos]

theorem sound_seconds {count n : Nat} {unit : String} (names : Names unit (.seconds n)) (fits : count < UInt64.size) :
    Amount.Sound ⟨count, unit, .seconds n⟩ := ⟨names, fits, fun _ h => nomatch h⟩

theorem sound_nanos {count n : Nat} {unit : String} (names : Names unit (.nanos n)) (fits : count < UInt64.size)
    (small : count * n < 1000000000) : Amount.Sound ⟨count, unit, .nanos n⟩ := ⟨names, fits, fun _ _ => small⟩

theorem sound_ofMany {count n : Nat} {unit : String} (one : Names unit (.seconds n))
    (many : Names (unit ++ "s") (.seconds n)) (fits : count < UInt64.size) :
    (Amount.ofMany count unit (.seconds n)).Sound := by
  refine sound_seconds ?_ fits
  split <;> assumption

theorem sound_written (d : Duration) : ∀ a ∈ d.written, a.Sound := by
  have seconds := d.seconds.toNat_lt_size
  have nanos := d.nanos.isLt
  intro a ha
  have listed := (List.mem_filter.mp ha).1
  simp only [amounts, List.mem_cons, List.not_mem_nil, or_false, year, month] at listed
  simp only [UInt64.size] at seconds
  have fits : ∀ n ≤ 18446744073709551615, n < UInt64.size := fun n h => Nat.lt_succ_of_le h
  rcases listed with rfl | rfl | rfl | rfl | rfl | rfl | rfl | rfl | rfl
  · exact sound_ofMany (names rfl rfl) (names rfl rfl) (fits _ (by omega))
  · exact sound_ofMany (names rfl rfl) (names rfl rfl) (fits _ (by omega))
  · exact sound_ofMany (names rfl rfl) (names rfl rfl) (fits _ (by omega))
  · exact sound_seconds (names rfl rfl) (fits _ (by omega))
  · exact sound_seconds (names rfl rfl) (fits _ (by omega))
  · exact sound_seconds (names rfl rfl) (fits _ (by omega))
  · exact sound_nanos (names rfl rfl) (fits _ (by omega)) (by omega)
  · exact sound_nanos (names rfl rfl) (fits _ (by omega)) (by omega)
  · exact sound_nanos (names rfl rfl) (fits _ (by omega)) (by omega)

/-- The text of a duration is a line of amounts that come to it. -/
theorem exists_line (d : Duration) : ∃ a as, d.render.toList = line (a :: as) ∧ (∀ b ∈ a :: as, b.Sound) ∧
    total (a :: as) = d.value := by
  by_cases zero : d = zero
  · -- nothing is left of the amounts, and what is written stands for none at all
    refine ⟨⟨0, "s", .seconds 1⟩, [], ?_, ?_, ?_⟩
    · rw [zero]
      decide +kernel
    · exact List.forall_mem_singleton.mpr (sound_seconds (names rfl rfl) (by decide))
    · rw [zero]
      rfl
  · have sum := d.total_written
    obtain ⟨a, as, shown⟩ : ∃ a as, d.written = a :: as := by
      refine List.exists_cons_of_ne_nil fun empty => zero (value_inj ?_)
      rw [← sum, empty]
      rfl
    refine ⟨a, as, ?_, shown ▸ d.sound_written, shown ▸ sum⟩
    rw [render, if_neg zero, parts_eq, shown, String.toList_intercalate, List.map_map]
    rfl

/-- The text of a duration is read as it. -/
theorem parse?_render (d : Duration) : parse? d.render = some d := by
  obtain ⟨a, as, text, sound, sum⟩ := d.exists_line
  obtain ⟨d', added, value⟩ := addAll_value sound (d := zero)
    (by rw [sum, value_zero, Nat.zero_add]; exact d.value_lt)
  obtain rfl : d' = d := value_inj (by rw [value, sum, value_zero, Nat.zero_add])
  obtain ⟨c, cs, starts, digit⟩ := line_cons a as
  have enough : as.length < d'.render.length := by
    rw [← String.length_toList, text]
    exact length_le_line (a :: as)
  have read : addAmounts? zero d'.render.length (d'.render.toList.dropWhile Text.isBlank) = some d' := by
    rw [text, starts, (Text.stops_cons.mpr (Text.not_blank_of_isDigit digit)).dropWhile, ← starts,
      addAmounts?_line sound _ enough, added]
  rw [parse?, read]
  refine if_neg fun bare => ?_
  have unread : addAmounts? zero "0".length ("0".toList.dropWhile Text.isBlank) = none := by decide +kernel
  rw [bare, unread] at read
  cases read

/-- There is no longer one. -/
example : parse? "584542046090years 7months 15days 17h 5m 3s 999ms 999us 999ns" =
    some ⟨18446744073709551615, 999999999⟩ := by decide +kernel

end JsonService.Duration
