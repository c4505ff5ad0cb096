import JsonService.Address
import JsonService.Proofs.Text.Digits

/-!
# Addresses read back from their text

Every reader is followed over the text of what it reads and some text after it, which must not go on with a digit.

A reader of groups looks for octets first, so it has to miss them: in what is written of groups there is no point, but
for groups that hold octets. It also has to stop where groups were left out (`Ends`), and what was left out there has
to have been zeros (`longestZeros_le`).

**Results.**
* `octets_render`, `someGroups_joined`, `eightGroups_render`: the hosts.
* `parse?_render`.
-/
namespace JsonService

/-! ## Hosts of groups -/

namespace Octets

theorem toGroups_ofGroups (upper lower : UInt16) : (ofGroups upper lower).toGroups = [upper, lower] := by
  have bytes : ∀ g : UInt16, (g / 256).toUInt8.toUInt16 * 256 + g.toUInt8.toUInt16 = g := by
    intro g
    have small := g.toNat_lt_size
    refine UInt16.toNat_inj.mp ?_
    simp only [UInt16.size] at small
    simp only [UInt16.toUInt16_toUInt8, UInt16.toNat_add, UInt16.toNat_mul, UInt16.toNat_mod, UInt16.toNat_div,
      UInt16.reduceToNat, Nat.reducePow, Nat.mod_add_mod]
    omega
  rw [ofGroups, toGroups, bytes, bytes]

theorem toList_render (ip : Octets) : ip.render.toList =
    Nat.toDigits 10 ip.first.toNat ++ '.' :: (Nat.toDigits 10 ip.second.toNat ++ '.' ::
      (Nat.toDigits 10 ip.third.toNat ++ '.' :: Nat.toDigits 10 ip.fourth.toNat)) := by
  simp [render, Nat.toList_repr]

end Octets

namespace Groups

theorem longestZeros_le (gs : List UInt16) : (longestZeros gs).2 ≤ zerosFrom gs (longestZeros gs).1 := by
  refine List.foldlRecOn (motive := fun best : Nat × Nat => best.2 ≤ zerosFrom gs best.1) _ _ (Nat.zero_le _)
    fun best h i _ => ?_
  by_cases longer : best.2 < zerosFrom gs i
  · simp only [if_pos longer, Nat.le_refl]
  · simpa only [if_neg longer] using h

theorem zeros_of_le {gs : List UInt16} {start length : Nat} (h : length ≤ zerosFrom gs start) :
    (gs.drop start).take length = List.replicate length 0 ∧ length ≤ gs.length - start := by
  have run : (gs.drop start).take length = ((gs.drop start).takeWhile (· = 0)).take length := by
    conv => lhs; rw [← List.takeWhile_append_dropWhile (p := (· = 0)) (l := gs.drop start)]
    exact List.take_append_of_le_length h
  have within : length ≤ gs.length - start := by
    rw [← List.length_drop]
    exact Nat.le_trans h (List.takeWhile_sublist _).length_le
  refine ⟨List.eq_replicate_iff.mpr ⟨by simp [within], fun g hg => ?_⟩, within⟩
  rw [run] at hg
  have zero := List.mem_takeWhile_imp (List.mem_of_mem_take hg)
  exact of_decide_eq_true zero

/-- A group and all that follow it, each after a colon. -/
def tail (gs : List UInt16) : List Char := gs.flatMap fun g => ':' :: Nat.toDigits 16 g.toNat

def between : List UInt16 → List Char
  | [] => []
  | g :: gs => Nat.toDigits 16 g.toNat ++ tail gs

theorem toList_joined (gs : List UInt16) : (joined gs).toList = between gs := by
  have all : ∀ gs : List UInt16, ∀ g, List.intercalate [':'] ((g :: gs).map fun g => Nat.toDigits 16 g.toNat) =
      Nat.toDigits 16 g.toNat ++ tail gs := by
    intro gs
    induction gs with
    | nil => exact fun g => by simp [tail]
    | cons h gs ih =>
      intro g
      rw [List.map_cons, List.map_cons, List.intercalate_cons_cons]
      have rest := ih h
      rw [List.map_cons] at rest
      simp [rest, tail]
  have digits : (String.toList ∘ digits : UInt16 → List Char) = fun g => Nat.toDigits 16 g.toNat := by
    funext g
    exact String.toList_ofList
  rw [joined, String.toList_intercalate, List.map_map, digits]
  cases gs with
  | nil => rfl
  | cons g gs => exact all gs g

end Groups

namespace Address

open Text (Stops stops_nil stops_cons)

/-! ## Numbers -/

abbrev isHex (c : Char) : Bool := (Text.hexDigit? c).isSome

variable {rest : List Char}

theorem number_toDigits (limit : Nat) {n : Nat} (small : n < limit) (hrest : Stops Char.isDigit rest) :
    number limit (Nat.toDigits 10 n ++ rest) = some (n, rest) := by
  rw [number, hrest.takeWhile_append (Text.isDigit_toDigits n), Text.decimalBelow?_toDigits small, Option.map_some,
    List.drop_left]

/-! ## Octets -/

theorem octet_toDigits (b : UInt8) (hrest : Stops Char.isDigit rest) :
    octet (Nat.toDigits 10 b.toNat ++ rest) = some (b, rest) := by
  have read := number_toDigits 256 b.toNat_lt_size hrest
  unfold octet
  split
  · next d cs zero =>
    -- a zero that is followed by something: by no digit, as it is the only one
    rcases Text.toDigits_head b.toNat with alone | other
    · rw [alone] at zero ⊢
      obtain rfl : rest = d :: cs := (List.cons.inj zero).2
      have isZero : b.toNat = (0 : UInt8).toNat := by rw [← Text.decimal_toDigits b.toNat, alone]; rfl
      rw [if_neg (by rw [stops_cons.mp hrest]; decide), UInt8.toNat_inj.mp isZero]
      rfl
    · obtain ⟨c, ds, digits⟩ := List.exists_cons_of_ne_nil (Nat.toDigits_ne_nil (n := b.toNat) (b := 10))
      rw [digits] at zero other
      exact absurd (congrArg some (List.cons.inj zero).1) other
  · simp [read]

/-- Four octets are read back. -/
theorem octets_render (ip : Octets) (hrest : Stops Char.isDigit rest) :
    octets (ip.render.toList ++ rest) = some (ip, rest) := by
  have point : ∀ cs, Stops Char.isDigit ('.' :: cs) := fun _ => stops_cons.mpr (by decide)
  rw [ip.toList_render]
  simp only [octets, List.append_assoc, List.cons_append, octet_toDigits _ (point _), octet_toDigits _ hrest, mark,
    if_true, Option.bind_eq_bind, Option.bind_some]
  rfl

theorem octet_rest {cs : List Char} {b : UInt8} (h : octet cs = some (b, rest)) : rest = cs.dropWhile Char.isDigit := by
  unfold octet at h
  split at h
  · next d cs =>
    split at h
    · cases h
    · next digit =>
      obtain rfl := (Prod.mk.inj (Option.some.inj h)).2
      rw [List.dropWhile_cons_of_pos (by decide), List.drop_one, List.tail_cons,
        (stops_cons.mpr (Bool.not_eq_true _ ▸ digit)).dropWhile]
  · obtain ⟨⟨n, rest'⟩, read, same⟩ := Option.map_eq_some_iff.mp h
    obtain ⟨n', -, same'⟩ := Option.map_eq_some_iff.mp read
    obtain rfl := (Prod.mk.inj same).2
    obtain rfl := (Prod.mk.inj same').2
    exact Text.drop_takeWhile ..

/-- No octets are read where the digits that come next, if any, are not followed by a point. -/
theorem octets_eq_none {cs : List Char} (h : (cs.dropWhile Char.isDigit).head? ≠ some '.') : octets cs = none := by
  rw [octets]
  cases first : octet cs with
  | none => rfl
  | some read =>
    obtain ⟨b, rest⟩ := read
    obtain rfl := octet_rest first
    have unmarked : mark '.' (cs.dropWhile Char.isDigit) = none := by
      cases left : cs.dropWhile Char.isDigit with
      | nil => rfl
      | cons c cs =>
        rw [left, List.head?_cons] at h
        exact if_neg fun point => h (congrArg some point)
    simp only [Option.bind_eq_bind, Option.bind_some, unmarked, Option.bind_none]

theorem octets_eq_none_of_notMem {cs : List Char} (h : '.' ∉ cs) : octets cs = none :=
  octets_eq_none fun point => h ((List.dropWhile_sublist _).subset (List.mem_of_mem_head? point))

/-! ## Groups -/

theorem toDigits_group (g : UInt16) : (Nat.toDigits 16 g.toNat).length ≤ 4 :=
  (Nat.length_toDigits_le_iff (by decide) (by decide)).mpr g.toNat_lt_size

theorem group_toDigits (g : UInt16) (hrest : Stops isHex rest) :
    group (Nat.toDigits 16 g.toNat ++ rest) = some (g, rest) := by
  have taken := hrest.takeWhile_append (Text.isSome_hexDigit?_toDigits g.toNat)
  have length := toDigits_group g
  simp [group, taken, Nat.toDigits_ne_nil, Text.hexadecimal?_toDigits, Nat.not_lt.mpr length]

theorem group_eq_none (h : Stops isHex rest) : group rest = none := by
  simp [group, h.takeWhile]

theorem after_colon {α : Type} (reader : Reader α) (cs : List Char) : after false reader (':' :: cs) = reader cs := rfl

section
variable {room : Nat} {first : Bool} {cs : List Char}

theorem someGroups_none (noOctets : after first octets cs = none) (noGroup : after first group cs = none) :
    someGroups room first cs = ([], false, cs) := by
  cases room with
  | zero => rfl
  | succ room => simp only [someGroups, noOctets, ite_self, noGroup]

theorem someGroups_group {g : UInt16} {gs : List UInt16} {ended : Bool} {later : List Char}
    (noOctets : after first octets cs = none) (read : after first group cs = some (g, later))
    (more : someGroups room false later = (gs, ended, rest)) :
    someGroups (room + 1) first cs = (g :: gs, ended, rest) := by
  simp only [someGroups, noOctets, ite_self, read, more]

theorem someGroups_octets {ip : Octets} (read : after first octets cs = some (ip, rest)) :
    someGroups (room + 2) first cs = (ip.toGroups, true, rest) := by
  rw [someGroups, if_neg (Nat.succ_ne_zero room), read]

end

/-- Groups end here: neither one of them nor octets can go on. -/
structure Ends (rest : List Char) : Prop where
  hex : Stops isHex rest
  more : after false group rest = none
  point : '.' ∉ rest

theorem ends_colons {cs : List Char} (point : '.' ∉ cs) : Ends (':' :: ':' :: cs) where
  hex := stops_cons.mpr (by decide)
  more := by
    rw [after_colon]
    exact group_eq_none (stops_cons.mpr (by decide))
  point := by simp [point]

theorem point_notMem_toDigits (n : Nat) : '.' ∉ Nat.toDigits 16 n :=
  fun point => absurd (Text.isSome_hexDigit?_toDigits n '.' point) (by decide)

theorem point_notMem_tail (gs : List UInt16) : '.' ∉ Groups.tail gs := by
  simp [Groups.tail, point_notMem_toDigits]

theorem point_notMem_between (gs : List UInt16) : '.' ∉ Groups.between gs := by
  cases gs with
  | nil => simp [Groups.between]
  | cons g gs => simp [Groups.between, point_notMem_toDigits, point_notMem_tail]

theorem after_octets_eq_none {first : Bool} {cs : List Char} (point : '.' ∉ cs) : after first octets cs = none := by
  cases first with
  | true => exact octets_eq_none_of_notMem point
  | false =>
    cases cs with
    | nil => rfl
    | cons c cs =>
      have later := octets_eq_none_of_notMem (List.not_mem_of_not_mem_cons point)
      by_cases colon : c = ':' <;> simp [after, mark, colon, later]

theorem Ends.tail (h : Ends rest) (gs : List UInt16) : Stops isHex (Groups.tail gs ++ rest) := by
  cases gs with
  | nil => exact h.hex
  | cons g gs => exact stops_cons.mpr (by decide)

/-- Groups after colons are read back. -/
theorem someGroups_tail (h : Ends rest) {gs : List UInt16} {room : Nat} (enough : gs.length ≤ room) :
    someGroups room false (Groups.tail gs ++ rest) = (gs, false, rest) := by
  induction gs generalizing room with
  | nil => exact someGroups_none (after_octets_eq_none h.point) h.more
  | cons g gs ih =>
    obtain ⟨room, rfl⟩ := Nat.exists_eq_succ_of_ne_zero (Nat.ne_of_gt (Nat.zero_lt_of_lt enough))
    have point : '.' ∉ Groups.tail (g :: gs) ++ rest := by simp [point_notMem_tail, h.point]
    have one : Groups.tail (g :: gs) ++ rest = ':' :: (Nat.toDigits 16 g.toNat ++ (Groups.tail gs ++ rest)) := by
      simp [Groups.tail]
    have read : after false group (Groups.tail (g :: gs) ++ rest) = some (g, Groups.tail gs ++ rest) := by
      rw [one, after_colon, group_toDigits g (h.tail gs)]
    exact someGroups_group (after_octets_eq_none point) read (ih (Nat.le_of_succ_le_succ enough))

theorem someGroups_between (h : Ends rest) {gs : List UInt16} {room : Nat} (enough : gs.length ≤ room) :
    someGroups room true (Groups.between gs ++ rest) = (gs, false, rest) := by
  have point : '.' ∉ Groups.between gs ++ rest := by simp [point_notMem_between, h.point]
  cases gs with
  | nil => exact someGroups_none (after_octets_eq_none point) (group_eq_none h.hex)
  | cons g gs =>
    obtain ⟨room, rfl⟩ := Nat.exists_eq_succ_of_ne_zero (Nat.ne_of_gt (Nat.zero_lt_of_lt enough))
    have read : after true group (Groups.between (g :: gs) ++ rest) = some (g, Groups.tail gs ++ rest) := by
      rw [Groups.between, List.append_assoc]
      exact group_toDigits g (h.tail gs)
    exact someGroups_group (after_octets_eq_none point) read (someGroups_tail h (Nat.le_of_succ_le_succ enough))

theorem eightGroups_all {ip : Groups} {cs : List Char} {ended : Bool}
    (all : someGroups 8 true cs = (ip.groups, ended, rest)) : eightGroups cs = some (ip, rest) := by
  rw [eightGroups, all]
  simp only [ip.length_groups, dif_pos]

/-- Eight groups of which some are left out, which are zeros. -/
theorem eightGroups_some {ip : Groups} {head tail : List UInt16} {cs later : List Char} {ended : Bool}
    (first : someGroups 8 true cs = (head, false, ':' :: ':' :: later))
    (last : someGroups (7 - head.length) true later = (tail, ended, rest)) (short : head.length ≠ 8)
    (same : head ++ List.replicate (8 - head.length - tail.length) 0 ++ tail = ip.groups) :
    eightGroups cs = some (ip, rest) := by
  obtain ⟨gs, length⟩ := ip
  subst same
  rw [eightGroups, first]
  simp only [dif_neg short, mark, if_true, last, Option.bind_eq_bind, Option.bind_some]
  exact dif_pos length

theorem eightGroups_octets {ip : Groups} {upper lower : UInt16}
    (held : ip.groups = [0, 0, 0, 0, 0, 0xFFFF, upper, lower]) (number : Stops Char.isDigit rest) :
    eightGroups ("::ffff:".toList ++ ((Octets.ofGroups upper lower).render.toList ++ rest)) = some (ip, rest) := by
  generalize later : ':' :: ((Octets.ofGroups upper lower).render.toList ++ rest) = cs
  have first : someGroups 8 true (':' :: ':' :: ("ffff".toList ++ cs)) =
      ([], false, ':' :: ':' :: ("ffff".toList ++ cs)) := by
    have noOctets : octets (':' :: ':' :: ("ffff".toList ++ cs)) = none := octets_eq_none (by simp)
    have noGroup : group (':' :: ':' :: ("ffff".toList ++ cs)) = none := group_eq_none (stops_cons.mpr (by decide))
    exact someGroups_none noOctets noGroup
  have octs : someGroups 6 false cs = ([upper, lower], true, rest) := by
    have read : after false octets cs = some (Octets.ofGroups upper lower, rest) := by
      rw [← later, after_colon, octets_render _ number]
    rw [someGroups_octets read, Octets.toGroups_ofGroups]
  have last : someGroups 7 true ("ffff".toList ++ cs) = ([0xFFFF, upper, lower], true, rest) := by
    have read : after true group ("ffff".toList ++ cs) = some (0xFFFF, cs) := by
      have digits : "ffff".toList = Nat.toDigits 16 (0xFFFF : UInt16).toNat := by decide
      have ends : Stops isHex cs := by rw [← later]; exact stops_cons.mpr (by decide)
      rw [digits]
      exact group_toDigits 0xFFFF ends
    have noOctets : octets ("ffff".toList ++ cs) = none := octets_eq_none (by simp)
    exact someGroups_group noOctets read octs
  have text : "::ffff:".toList ++ ((Octets.ofGroups upper lower).render.toList ++ rest) =
      ':' :: ':' :: ("ffff".toList ++ cs) := by simp [← later]
  rw [text]
  exact eightGroups_some first last (by decide) (by rw [held]; rfl)

/-- Eight groups are read back from what is written of them. -/
theorem eightGroups_render (ip : Groups) (h : Ends rest) (number : Stops Char.isDigit rest) :
    eightGroups (ip.render.toList ++ rest) = some (ip, rest) := by
  unfold Groups.render
  split
  · next upper lower held =>
    rw [String.toList_append, List.append_assoc]
    exact eightGroups_octets held number
  · obtain ⟨zeros, within⟩ := Groups.zeros_of_le (Groups.longestZeros_le ip.groups)
    generalize Groups.longestZeros ip.groups = run at zeros within
    obtain ⟨start, length⟩ := run
    have eight := ip.length_groups
    simp only at zeros within ⊢
    split
    · next many =>
      generalize hhead : ip.groups.take start = head
      generalize htail : ip.groups.drop (start + length) = tail
      have headLength : head.length = start := by rw [← hhead, List.length_take]; omega
      have tailLength : tail.length = 8 - start - length := by rw [← htail, List.length_drop]; omega
      have text : (Groups.joined head ++ "::" ++ Groups.joined tail).toList ++ rest =
          Groups.between head ++ (':' :: ':' :: (Groups.between tail ++ rest)) := by
        simp [Groups.toList_joined]
      have point : '.' ∉ Groups.between tail ++ rest := by simp [point_notMem_between, h.point]
      rw [text]
      refine eightGroups_some (someGroups_between (ends_colons point) (by omega))
        (someGroups_between h (by omega)) (by omega) ?_
      calc head ++ List.replicate (8 - head.length - tail.length) 0 ++ tail
          = ip.groups.take start ++ ((ip.groups.drop start).take length ++ ip.groups.drop (start + length)) := by
            rw [zeros, hhead, htail, List.append_assoc, headLength, tailLength]
            congr 3
            omega
        _ = ip.groups := by rw [← List.drop_drop, List.take_append_drop, List.take_append_drop]
    · rw [Groups.toList_joined]
      exact eightGroups_all (someGroups_between h (by omega))

/-! ## Networks and ports -/

/-- What is written of the number of a network: nothing for zero. -/
def zoned (scope : UInt32) : List Char := if scope = 0 then [] else '%' :: Nat.toDigits 10 scope.toNat

theorem scope_zoned (n : UInt32) (hrest : Stops Char.isDigit rest) (bare : rest.head? ≠ some '%') :
    scope (zoned n ++ rest) = (n, rest) := by
  unfold zoned
  split
  · next zero =>
    have unmarked : mark '%' rest = none := by
      cases rest with
      | nil => rfl
      | cons c cs => exact if_neg fun percent => bare (congrArg some percent)
    simp [scope, unmarked, zero]
  · have read := number_toDigits UInt32.size n.toNat_lt_size hrest
    simp [scope, mark, read]

/-- Groups end before the number of a network and where the bracket is closed. -/
theorem ends_zoned (scope : UInt32) (port : UInt16) :
    Ends (zoned scope ++ ']' :: ':' :: Nat.toDigits 10 port.toNat) ∧
      Stops Char.isDigit (zoned scope ++ ']' :: ':' :: Nat.toDigits 10 port.toNat) := by
  have point : ∀ n, '.' ∉ Nat.toDigits 10 n := fun n point => absurd (Text.isDigit_toDigits n _ point) (by decide)
  unfold zoned
  split
  · exact ⟨⟨stops_cons.mpr (by decide), rfl, by simp [point]⟩, stops_cons.mpr (by decide)⟩
  · exact ⟨⟨stops_cons.mpr (by decide), rfl, by simp [point]⟩, stops_cons.mpr (by decide)⟩

theorem portPart_toDigits (n : UInt16) : portPart (':' :: Nat.toDigits 10 n.toNat) = some (n, []) := by
  have read := number_toDigits UInt16.size n.toNat_lt_size stops_nil
  rw [List.append_nil] at read
  simp [portPart, mark, read]

theorem toList_render_octets (ip : Octets) (port : UInt16) :
    (render ⟨.octets ip, port⟩).toList = ip.render.toList ++ ':' :: Nat.toDigits 10 port.toNat := by
  have host : toString ip.render = ip.render := rfl
  have colon : (toString ":").toList = [':'] := rfl
  simp [render, Nat.toList_repr, host, colon]

theorem toList_render_groups (ip : Groups) (scope : UInt32) (port : UInt16) :
    (render ⟨.groups ip scope, port⟩).toList =
      '[' :: (ip.render.toList ++ (zoned scope ++ ']' :: ':' :: Nat.toDigits 10 port.toNat)) := by
  have zone : (if scope = 0 then "" else s!"%{scope.toNat}").toList = zoned scope := by
    unfold zoned
    split
    · rfl
    · have percent : (toString "%").toList = ['%'] := rfl
      simp [Nat.toList_repr, percent]
  have text : ∀ a b c : String, (s!"[{a}{b}]:{c}").toList =
      '[' :: (a.toList ++ (b.toList ++ ']' :: ':' :: c.toList)) := by
    intro a b c
    have same : ∀ s : String, toString s = s := fun _ => rfl
    simp [same]
  rw [← zone, ← Nat.toList_repr]
  exact text _ _ _

/-! ## What stands between brackets -/

/-- Whether a character may stand between the brackets of an address. -/
def inBrackets (c : Char) : Bool := isHex c || c = ':' || c = '.' || c = '%'

theorem inBrackets_of_isHex {c : Char} (h : isHex c = true) : inBrackets c = true := by
  simp only [inBrackets, h, Bool.true_or]

theorem inBrackets_toDigits (n : Nat) : ∀ c ∈ Nat.toDigits 10 n, inBrackets c = true := fun c hc =>
  inBrackets_of_isHex (Text.isSome_hexDigit?_of_isDigit (Text.isDigit_toDigits n c hc))

theorem inBrackets_between (gs : List UInt16) : ∀ c ∈ Groups.between gs, inBrackets c = true := by
  have group : ∀ g : UInt16, ∀ c ∈ Nat.toDigits 16 g.toNat, inBrackets c = true :=
    fun g c hc => inBrackets_of_isHex (Text.isSome_hexDigit?_toDigits _ c hc)
  cases gs with
  | nil => exact fun _ hc => nomatch hc
  | cons g gs =>
    refine List.forall_mem_append.mpr ⟨group g, fun c hc => ?_⟩
    obtain ⟨g', -, hc⟩ := List.mem_flatMap.mp hc
    rcases List.mem_cons.mp hc with rfl | hc
    · decide
    · exact group g' c hc

theorem inBrackets_groups (ip : Groups) : ip.render.toList ≠ [] ∧ ∀ c ∈ ip.render.toList, inBrackets c = true := by
  unfold Groups.render
  split
  · rw [String.toList_append, Octets.toList_render]
    simp only [List.forall_mem_append, List.forall_mem_cons]
    exact ⟨by simp, List.all_eq_true.mp rfl, inBrackets_toDigits _, by decide, inBrackets_toDigits _, by decide,
      inBrackets_toDigits _, by decide, inBrackets_toDigits _⟩
  · generalize Groups.longestZeros ip.groups = run
    obtain ⟨start, length⟩ := run
    simp only
    split
    · simp only [String.toList_append, Groups.toList_joined, List.forall_mem_append]
      exact ⟨by simp, ⟨inBrackets_between _, List.all_eq_true.mp rfl⟩, inBrackets_between _⟩
    · rw [Groups.toList_joined]
      refine ⟨fun empty => ?_, inBrackets_between _⟩
      have eight := ip.length_groups
      cases gs : ip.groups with
      | nil => simp [gs] at eight
      | cons g rest => simp [gs, Groups.between, Nat.toDigits_ne_nil] at empty

theorem inBrackets_zoned (scope : UInt32) : ∀ c ∈ zoned scope, inBrackets c = true := by
  unfold zoned
  split
  · exact fun _ hc => nomatch hc
  · exact List.forall_mem_cons.mpr ⟨by decide, inBrackets_toDigits _⟩

/-! ## Addresses -/

/-- The text of an address is read as it. -/
theorem parse?_render (a : Address) : parse? a.render = some a := by
  obtain ⟨host, port⟩ := a
  cases host with
  | octets ip =>
    have colon : Stops Char.isDigit (':' :: Nat.toDigits 10 port.toNat) := stops_cons.mpr (by decide)
    rw [parse?, toList_render_octets]
    simp [withOctets, octets_render ip colon, portPart_toDigits]
  | groups ip scope =>
    obtain ⟨ends, undigit⟩ := ends_zoned scope port
    have host := eightGroups_render ip ends undigit
    have bracket : Stops Char.isDigit (']' :: ':' :: Nat.toDigits 10 port.toNat) := stops_cons.mpr (by decide)
    have zone := scope_zoned scope bracket (by simp)
    have missed : octets (render ⟨.groups ip scope, port⟩).toList = none := by
      rw [toList_render_groups]
      exact octets_eq_none (by simp)
    rw [parse?]
    rw [toList_render_groups] at missed ⊢
    simp [withOctets, withGroups, missed, mark, host, zone, portPart_toDigits]

/-- Groups that hold octets, on one network. -/
example : render ⟨.groups ⟨[0, 0, 0, 0, 0, 0xFFFF, 0x0102, 0x0304], rfl⟩ 5, 80⟩ = "[::ffff:1.2.3.4%5]:80" := by
  decide +kernel

end Address

end JsonService
