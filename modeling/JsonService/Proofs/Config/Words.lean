import JsonService.Config
import JsonService.Proofs.Addresses
import JsonService.Proofs.Durations

/-!
# Settings that stand for their own text

A setting is written as a text, and a text without marks of its own is a bare word. A bare word that goes on after the
digits it starts with is no number, unless that is a point and what follows it.

**Results.**
* `parse_word`, `ofWord_eq_text`, `float?_digits`, `float?_point`: the words that are no numbers.
* `parse_brackets`: what seems to be a list, but for what follows it.
* `parse_duration`, `parse_address`, `parse_format`: the texts of a configuration are such texts.
-/
namespace JsonService

namespace Config.Setting

open Text (Stops stops_cons stops_nil)

/-! ## Bare words -/

/-- A text that is read as a bare word where `rest` follows it. -/
structure IsWord (word rest : List Char) : Prop where
  chars : ∀ c ∈ word, inWord c = true
  starts : ∃ c cs, word = c :: cs ∧ isSpace c = false ∧ c ≠ '"' ∧ c ≠ '\''
  noKeyword : keyword? "true" (word ++ rest) = none ∧ keyword? "false" (word ++ rest) = none
  ends : Stops inWord rest

section
variable {p : Char → Bool} {c : Char}

/-- What satisfies a property that the marks of lists and tables lack is none of them. -/
theorem inWord_of (h : [',', '\x7b', '\x7d', '[', ']'].any p = false) (hc : p c = true) : inWord c = true := by
  simpa [inWord] using Text.ne_of_any h hc

/-- What satisfies a property that spaces and quotes lack starts a word. -/
theorem starts_of (h : [' ', '\t', '\n', '\x0c', '\r', '"', '\''].any p = false) (hc : p c = true) :
    isSpace c = false ∧ c ≠ '"' ∧ c ≠ '\'' := by
  have other := Text.ne_of_any h hc
  simp only [List.forall_mem_cons] at other
  simp [isSpace, other]

end

theorem keyword?_eq_none {keyword : String} {cs : List Char} (h : ¬keyword.toList <+: cs) :
    keyword? keyword cs = none :=
  if_neg fun found => h (List.isPrefixOf_iff_prefix.mp found)

theorem isWord_of_digit {c : Char} {cs : List Char} (digit : c.isDigit = true)
    (chars : ∀ d ∈ c :: cs, inWord d = true) : IsWord (c :: cs) [] where
  chars := chars
  starts := ⟨c, cs, rfl, starts_of (by decide) digit⟩
  noKeyword := by
    have letters : c ≠ 't' ∧ c ≠ 'f' := by
      constructor <;> (rintro rfl; cases digit)
    exact ⟨keyword?_eq_none fun start => letters.1 (List.cons_prefix_cons.mp start).1.symm,
      keyword?_eq_none fun start => letters.2 (List.cons_prefix_cons.mp start).1.symm⟩
  ends := stops_nil

variable {word rest : List Char} (inner : Reader Setting)

/-- A bare word is taken, up to a mark. -/
theorem bareValue?_word (h : IsWord word rest) :
    bareValue? inner (word ++ rest) = some (ofWord (Text.stripEnds Text.isBlank word), rest) := by
  have taken := h.ends.takeWhile_append h.chars
  have left := h.ends.dropWhile_append h.chars
  obtain ⟨noTrue, noFalse⟩ := h.noKeyword
  obtain ⟨c, cs, rfl, -, quote, apostrophe⟩ := h.starts
  have plain := h.chars c (List.mem_cons_self ..)
  simp only [inWord, decide_eq_true_eq] at plain
  rw [List.cons_append] at noTrue noFalse taken left ⊢
  -- no other case fits what the word starts with
  unfold bareValue?
  split <;> simp_all

theorem value?_word (depth : Nat) (h : IsWord word rest) : value? (depth + 1) (word ++ rest) =
    some (ofWord (Text.stripEnds Text.isBlank word), rest.dropWhile isSpace) := by
  obtain ⟨c, cs, split, space, -⟩ := h.starts
  have kept : (word ++ rest).dropWhile isSpace = word ++ rest := by
    rw [split]
    exact (stops_cons.mpr space).dropWhile
  rw [value?, kept, bareValue?_word _ h, Option.map_some]

/-- A bare word with no blank at its ends stands for what a word does. -/
theorem parse_word {s : String} (h : IsWord s.toList []) (first : Stops Text.isBlank s.toList)
    (last : Stops Text.isBlank s.toList.reverse) : parse s = ofWord s.toList := by
  have read := value?_word s.length h
  rw [List.append_nil, Text.stripEnds_self first last] at read
  rw [parse, read]
  rfl

/-! ## What seems to be a list -/

theorem items?_one {value : Reader Setting} (fuel : Nat) {cs : List Char} {v : Setting}
    (read : value cs = some (v, ']' :: rest)) (item : cs.head? ≠ some ']') :
    items? value (fuel + 1) cs = some ([v], rest) := by
  unfold items?
  split
  · next same => cases same
  · exact absurd rfl item
  · simp only [read, Option.bind_eq_bind, Option.bind_some]
    rfl

theorem bareValue?_list {cs : List Char} {v : Setting} (read : inner cs = some (v, ']' :: rest))
    (item : cs.head? ≠ some ']') : bareValue? inner ('[' :: cs) = some (.list [v], rest) := by
  have noKeyword : ∀ word ∈ ["true", "false"], keyword? word ('[' :: cs) = none := by simp [keyword?]
  have items := items?_one cs.length read item
  simp only [bareValue?, noKeyword "true" (by simp), noKeyword "false" (by simp), List.length_cons, items,
    Option.map_some]

theorem IsWord.head?_ne (h : IsWord word rest) : (word ++ rest).head? ≠ some ']' := by
  obtain ⟨c, cs, rfl, -⟩ := h.starts
  intro closed
  have mark := h.chars c (List.mem_cons_self ..)
  rw [List.cons_append, List.head?_cons, Option.some.injEq] at closed
  rw [closed] at mark
  cases mark

/-- A list that something follows is no list, and its text stands for itself. -/
theorem parse_brackets {s : String} {inside after : List Char} {c : Char}
    (text : s.toList = '[' :: (inside ++ ']' :: c :: after)) (h : IsWord inside (']' :: c :: after))
    (space : isSpace c = false) : parse s = .text s := by
  obtain ⟨depth, deep⟩ : ∃ depth, s.length = depth + 1 := by
    rw [← String.length_toList, text]
    exact ⟨_, List.length_cons⟩
  have opening : ('[' :: (inside ++ ']' :: c :: after)).dropWhile isSpace = '[' :: (inside ++ ']' :: c :: after) :=
    (stops_cons.mpr (by decide)).dropWhile
  have closing : (']' :: c :: after).dropWhile isSpace = ']' :: c :: after := (stops_cons.mpr (by decide)).dropWhile
  have follows : (c :: after).dropWhile isSpace = c :: after := (stops_cons.mpr space).dropWhile
  have value := value?_word depth h
  rw [closing] at value
  rw [parse, text, deep, value?, opening, bareValue?_list _ value h.head?_ne, Option.map_some]
  simp only [follows]

/-! ## Words that are no numbers -/

theorem takeSign_digit {c : Char} (digit : c.isDigit = true) (cs : List Char) :
    takeSign (c :: cs) = (false, c :: cs) := by
  unfold takeSign
  split
  · next same => rw [(List.cons.inj same).1] at digit; cases digit
  · next same => rw [(List.cons.inj same).1] at digit; cases digit
  · rfl

/-- A word that goes on after its digits is no whole number. -/
theorem ofWord_eq_text {c d : Char} {cs : List Char} (digit : c.isDigit = true) (mem : d ∈ cs)
    (other : d.isDigit = false) (noFloat : float? (c :: cs) = none) :
    ofWord (c :: cs) = .text (String.ofList (c :: cs)) := by
  have noNumber : ∀ limit, Text.decimalBelow? limit (c :: cs) = none :=
    fun _ => Text.decimalBelow?_eq_none (List.mem_cons_of_mem _ mem) other
  have noUnsigned : Text.unsigned? UInt64.size (c :: cs) = none := by
    unfold Text.unsigned?
    split
    · next same => rw [(List.cons.inj same).1] at digit; cases digit
    · exact noNumber _
  have noSigned : signed? (c :: cs) = none := by
    simp only [signed?, takeSign_digit digit, noNumber]
    rfl
  simp only [ofWord, noFloat, noUnsigned, noSigned]

variable {ds es : List Char}

/-- Without a point after its first digits a word is no number with a point. -/
theorem float?_digits (ne : ds ≠ []) (digits : ∀ c ∈ ds, c.isDigit = true) (stops : Stops Char.isDigit rest)
    (noPoint : rest.head? ≠ some '.') : float? (ds ++ rest) = none := by
  obtain ⟨c, cs, rfl⟩ := List.exists_cons_of_ne_nil ne
  have sign := takeSign_digit (digits c (List.mem_cons_self ..)) (cs ++ rest)
  have left := stops.dropWhile_append digits
  rw [List.cons_append] at left ⊢
  simp only [float?, sign, Text.drop_takeWhile]
  simp only [left]
  split
  · exact absurd rfl noPoint
  · rfl

/-- Nor is it one if something follows the digits after the point that is no exponent. -/
theorem float?_point (ne : ds ≠ []) (digits : ∀ c ∈ ds, c.isDigit = true) (fraction : ∀ c ∈ es, c.isDigit = true)
    {c : Char} (stops : c.isDigit = false) (noExponent : c ≠ 'e' ∧ c ≠ 'E') :
    float? (ds ++ '.' :: (es ++ c :: rest)) = none := by
  obtain ⟨d, ds, rfl⟩ := List.exists_cons_of_ne_nil ne
  have sign := takeSign_digit (digits d (List.mem_cons_self ..)) (ds ++ '.' :: (es ++ c :: rest))
  have point : Stops Char.isDigit ('.' :: (es ++ c :: rest)) := stops_cons.mpr (by decide)
  have ended : Stops Char.isDigit (c :: rest) := stops_cons.mpr stops
  have left := point.dropWhile_append digits
  rw [List.cons_append] at left ⊢
  have none_left : exponent? (c :: rest) = none := if_neg (not_or.mpr noExponent)
  simp only [float?, sign, Text.drop_takeWhile]
  simp only [left, ended.dropWhile_append fraction, none_left, Option.bind_eq_bind, Option.bind_none, ite_self]

/-- A text that starts with a digit and goes on with more than digits stands for itself, unless it is a number with a
point. -/
theorem parse_numbered {s : String} {c d : Char} {cs : List Char} (text : s.toList = c :: cs) (digit : c.isDigit = true)
    (mem : d ∈ cs) (other : d.isDigit = false) (chars : ∀ e ∈ s.toList, inWord e = true)
    (last : Stops Text.isBlank s.toList.reverse) (noFloat : float? s.toList = none) : parse s = .text s := by
  have word : IsWord s.toList [] := by
    rw [text] at chars ⊢
    exact isWord_of_digit digit chars
  have first : Stops Text.isBlank s.toList := by
    rw [text]
    exact stops_cons.mpr (Text.not_blank_of_isDigit digit)
  rw [parse_word word first last]
  rw [text] at noFloat ⊢
  rw [ofWord_eq_text digit mem other noFloat, ← text, String.ofList_toList]

end Config.Setting

/-! ## Durations -/

namespace Duration

open Text (Stops stops_cons stops_of_forall)
open Config (Setting)

theorem chars_line {as : List Amount} (sound : ∀ a ∈ as, a.Sound) : ∀ c ∈ line as, Setting.inWord c = true := by
  refine Text.forall_mem_intercalate (List.forall_mem_singleton.mpr (by decide)) fun part hpart c hc => ?_
  obtain ⟨a, ha, rfl⟩ := List.mem_map.mp hpart
  rw [a.toList_text, List.mem_append] at hc
  rcases hc with digit | letter
  · exact Setting.inWord_of (by decide) (Text.isDigit_toDigits _ c digit)
  · exact Setting.inWord_of (by decide) ((sound a ha).names.letters c letter)

theorem line_last {a : Amount} {as : List Amount} (sound : ∀ b ∈ a :: as, b.Sound) :
    Stops Text.isBlank (line (a :: as)).reverse := by
  induction as generalizing a with
  | nil =>
    have sound_a := sound a (List.mem_cons_self ..)
    have text : (line [a]).reverse = a.unit.toList.reverse ++ (Nat.toDigits 10 a.count).reverse := by
      simp [line, a.toList_text]
    have letters := stops_of_forall fun c hc =>
      Text.not_blank (p := inUnit) (by decide) (sound_a.names.letters c (List.mem_reverse.mp hc))
    rw [text]
    exact letters.append (mt List.reverse_eq_nil_iff.mp sound_a.names.ne_nil) _
  | cons b bs ih =>
    obtain ⟨c, cs, starts, -⟩ := line_cons b bs
    have ne : (line (b :: bs)).reverse ≠ [] := by simp [starts]
    rw [line_cons_cons, List.reverse_append, List.reverse_cons, List.append_assoc]
    exact (ih (List.forall_mem_cons.mp sound).2).append ne _

/-- A line goes on with a letter after its first digits. -/
theorem line_split {a : Amount} (sound : a.Sound) (as : List Amount) :
    ∃ u us, line (a :: as) = Nat.toDigits 10 a.count ++ u :: us ∧ inUnit u = true := by
  obtain ⟨u, us, name⟩ := List.exists_cons_of_ne_nil sound.names.ne_nil
  have letter := sound.names.letters u (name ▸ List.mem_cons_self ..)
  cases as with
  | nil => exact ⟨u, us, by simp [line, a.toList_text, name], letter⟩
  | cons b bs => exact ⟨u, us ++ ' ' :: line (b :: bs), by simp [line_cons_cons, a.toList_text, name], letter⟩

end Duration

namespace Config.Setting

open Text (Stops stops_cons stops_nil stops_of_forall)

theorem parse_duration (d : Duration) : parse d.render = .text d.render := by
  obtain ⟨a, as, text, sound, -⟩ := d.exists_line
  obtain ⟨u, us, split, letter⟩ := Duration.line_split (sound a (List.mem_cons_self ..)) as
  have undigit : u.isDigit = false := Text.not_digit (p := Duration.inUnit) (by decide) letter
  have point : u ≠ '.' := by rintro rfl; cases letter
  have digits := Text.isDigit_toDigits a.count
  have noFloat : float? d.render.toList = none := by
    rw [text, split]
    exact float?_digits Nat.toDigits_ne_nil digits (stops_cons.mpr undigit) (by simpa using point)
  obtain ⟨c, cs, number⟩ := List.exists_cons_of_ne_nil (Nat.toDigits_ne_nil (n := a.count) (b := 10))
  rw [number] at split digits
  refine parse_numbered (d := u) (text.trans split) (digits c (List.mem_cons_self ..)) (by simp) undigit ?_ ?_ noFloat
  · rw [text]
    exact Duration.chars_line sound
  · rw [text]
    exact Duration.line_last sound

theorem parse_format (f : Log.Format) : parse f.name = .text f.name := by
  cases f with
  | json => rfl
  | text => rfl

/-! ## Addresses -/

/-- The text of four octets with a port stands for itself: it goes on with a second point. -/
theorem parse_octets (ip : Octets) (port : UInt16) :
    parse (Address.render ⟨.octets ip, port⟩) = .text (Address.render ⟨.octets ip, port⟩) := by
  have text := Address.toList_render_octets ip port
  generalize Address.render ⟨.octets ip, port⟩ = s at text
  have digits := fun b : UInt8 => Text.isDigit_toDigits b.toNat
  have inWord_digits : ∀ n, ∀ c ∈ Nat.toDigits 10 n, inWord c = true :=
    fun n c hc => inWord_of (by decide) (Text.isDigit_toDigits n c hc)
  have chars : ∀ c ∈ s.toList, inWord c = true := by
    rw [text, ip.toList_render]
    simp only [List.forall_mem_append, List.forall_mem_cons]
    exact ⟨⟨inWord_digits _, by decide, inWord_digits _, by decide, inWord_digits _, by decide, inWord_digits _⟩,
      by decide, inWord_digits _⟩
  have last : Stops Text.isBlank s.toList.reverse := by
    have port := stops_of_forall fun c hc =>
      Text.not_blank_of_isDigit (Text.isDigit_toDigits port.toNat c (List.mem_reverse.mp hc))
    rw [text, List.reverse_append, List.reverse_cons, List.append_assoc]
    exact port.append (mt List.reverse_eq_nil_iff.mp Nat.toDigits_ne_nil) _
  obtain ⟨rest, split⟩ : ∃ rest, s.toList = Nat.toDigits 10 ip.first.toNat ++
      '.' :: (Nat.toDigits 10 ip.second.toNat ++ '.' :: rest) :=
    ⟨_, by rw [text, ip.toList_render, List.append_assoc, List.cons_append, List.append_assoc, List.cons_append]⟩
  have noFloat : float? s.toList = none := by
    rw [split]
    exact float?_point Nat.toDigits_ne_nil (digits _) (digits _) (by decide) (by decide)
  obtain ⟨c, cs, number⟩ := List.exists_cons_of_ne_nil (Nat.toDigits_ne_nil (n := ip.first.toNat) (b := 10))
  have digit := digits ip.first c (number ▸ List.mem_cons_self ..)
  rw [number, List.cons_append] at split
  exact parse_numbered (d := '.') split digit (by simp) (by decide) chars last noFloat

/-- So does that of groups between brackets, which the port follows. -/
theorem parse_groups (ip : Groups) (scope : UInt32) (port : UInt16) :
    parse (Address.render ⟨.groups ip scope, port⟩) = .text (Address.render ⟨.groups ip scope, port⟩) := by
  have text := Address.toList_render_groups ip scope port
  rw [← List.append_assoc] at text
  obtain ⟨ne, chars⟩ := Address.inBrackets_groups ip
  have inside : ∀ c ∈ ip.render.toList ++ Address.zoned scope, Address.inBrackets c = true :=
    List.forall_mem_append.mpr ⟨chars, Address.inBrackets_zoned scope⟩
  obtain ⟨c, cs, split⟩ := List.exists_cons_of_ne_nil (List.append_ne_nil_of_left_ne_nil ne (Address.zoned scope))
  -- neither keyword can stand there for want of its letters
  have noLetter : ∀ d, Address.inBrackets d = false → d ≠ ']' →
      d ∉ ip.render.toList ++ Address.zoned scope ++ ']' :: ':' :: Nat.toDigits 10 port.toNat := by
    intro d outside bracket mem
    rcases List.mem_append.mp mem with mem | mem
    · rw [inside d mem] at outside
      cases outside
    · simp only [List.mem_cons] at mem
      rcases mem with rfl | rfl | mem
      · exact bracket rfl
      · cases outside
      · rw [Address.inBrackets_toDigits _ d mem] at outside
        cases outside
  refine parse_brackets text ⟨fun d hd => inWord_of (by decide) (inside d hd), ⟨c, cs, split, ?_⟩, ?_, ?_⟩ (by decide)
  · exact starts_of (by decide) (inside c (split ▸ List.mem_cons_self ..))
  · exact ⟨keyword?_eq_none fun start => noLetter 't' (by decide) (by decide) (start.subset (by decide)),
      keyword?_eq_none fun start => noLetter 'l' (by decide) (by decide) (start.subset (by decide))⟩
  · exact stops_cons.mpr (by decide)

theorem parse_address (a : Address) : parse a.render = .text a.render := by
  obtain ⟨host, port⟩ := a
  cases host with
  | octets ip => exact parse_octets ip port
  | groups ip scope => exact parse_groups ip scope port

end Config.Setting

end JsonService
