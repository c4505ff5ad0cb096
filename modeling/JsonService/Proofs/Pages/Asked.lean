import JsonService.Page
import Mathlib.Data.Nat.Digits.Defs

/-!
# Which page a request asks for

A request asks for a page by two parameters of its query. What it says for a parameter is the first value of that name;
where that is empty, or there is none, it is the default.

**Numbers.** `Text.Spells` is the grammar of a number, and its value that of its digits by their places.

**Results.**
* `number?_eq_some`: the numbers that are read are those of the grammar below the limit.
* `says_query`: what a request says for a parameter.
* `parameter_eq`: a parameter is read from what the request says, the default included.
* `page_of_query`: so a request asks for a page just if both texts are such numbers and that of the page is not zero;
  otherwise the failure is about the page if that is at fault, and about the size only if it is not.
-/
namespace JsonService

/-! ## Numbers -/

namespace Text

/-- A text spells a number: at least one digit, and a plus sign before them or none. -/
def Spells (s : String) (n : Nat) : Prop :=
  ∃ sign ds : List Char, s.toList = sign ++ ds ∧ (sign = [] ∨ sign = ['+']) ∧ ds ≠ [] ∧
    (∀ d ∈ ds, '0' ≤ d ∧ d ≤ '9') ∧ n = Nat.ofDigits 10 (ds.reverse.map fun d => d.toNat - '0'.toNat)

/-- Digits count by their places. -/
theorem decimal_eq_ofDigits (ds : List Char) :
    decimal ds = Nat.ofDigits 10 (ds.reverse.map fun d => d.toNat - '0'.toNat) := by
  rw [decimal, ← List.foldr_reverse, Nat.ofDigits_eq_foldr, List.foldr_map]
  congr 1
  funext d n
  rw [Nat.cast_id, Nat.add_comm, Nat.mul_comm]
  rfl

theorem isDigit_iff (c : Char) : c.isDigit = true ↔ '0' ≤ c ∧ c ≤ '9' := by
  rw [Char.isDigit, Bool.and_eq_true, decide_eq_true_iff, decide_eq_true_iff]
  rfl

theorem decimalBelow?_eq_some {limit n : Nat} {ds : List Char} : decimalBelow? limit ds = some n ↔
    (ds ≠ [] ∧ (∀ d ∈ ds, '0' ≤ d ∧ d ≤ '9') ∧ n = decimal ds) ∧ n < limit := by
  simp only [decimalBelow?, decimal?, Option.filter_eq_some_iff, decide_eq_true_eq, ← isDigit_iff, ← List.all_eq_true]
  refine and_congr_left fun _ => ?_
  split <;> grind

/-- What is read is a number of the grammar below the limit. -/
theorem unsigned?_eq_some {limit n : Nat} {s : String} :
    unsigned? limit s.toList = some n ↔ Spells s n ∧ n < limit := by
  simp only [Spells, ← decimal_eq_ofDigits]
  generalize s.toList = cs
  unfold unsigned?
  split
  · next ds =>
    rw [decimalBelow?_eq_some]
    refine and_congr_left fun _ => ⟨fun h => ⟨['+'], ds, rfl, .inr rfl, h⟩, ?_⟩
    rintro ⟨sign, ds', split, rfl | rfl, h⟩
    · -- a plus sign is no digit
      have plus := h.2.1 '+' (by rw [← List.nil_append ds', ← split]; exact List.mem_cons_self)
      exact absurd plus (by decide)
    · rw [List.singleton_append, List.cons.injEq] at split
      rwa [split.2]
  · next unsigned =>
    rw [decimalBelow?_eq_some]
    refine and_congr_left fun _ => ⟨fun h => ⟨[], cs, rfl, .inl rfl, h⟩, ?_⟩
    rintro ⟨sign, ds, split, rfl | rfl, h⟩
    · rwa [split]
    · exact absurd split (unsigned ds)

end Text

namespace Page

theorem number?_eq_some {s : String} {n : Nat} : number? s = some n ↔ Text.Spells s n ∧ n < 2 ^ 32 :=
  Text.unsigned?_eq_some

theorem number?_eq_none {s : String} : number? s = none ↔ ∀ n, Text.Spells s n → 2 ^ 32 ≤ n := by
  simp only [Option.eq_none_iff_forall_ne_some, ne_eq, number?_eq_some, not_and, Nat.not_lt]

/-! ## What a request says -/

/-- The first value of a name, or a default where it is empty or there is none. -/
inductive Says (pairs : List (String × String)) (name default : String) : String → Prop
  | given {before after : List (String × String)} {value : String} (first : pairs = before ++ (name, value) :: after)
      (others : ∀ p ∈ before, p.1 ≠ name) (nonempty : value ≠ "") : Says pairs name default value
  | empty {before after : List (String × String)} (first : pairs = before ++ (name, "") :: after)
      (others : ∀ p ∈ before, p.1 ≠ name) : Says pairs name default default
  | absent (others : ∀ p ∈ pairs, p.1 ≠ name) : Says pairs name default default

theorem lookup_eq_some {name value : String} {pairs : List (String × String)}
    (h : Text.Form.lookup name pairs = some value) :
    ∃ before after, pairs = before ++ (name, value) :: after ∧ ∀ p ∈ before, p.1 ≠ name := by
  obtain ⟨⟨name', value'⟩, found, rfl⟩ := Option.map_eq_some_iff.mp h
  obtain ⟨named, before, after, split, others⟩ := List.find?_eq_some_iff_append.mp found
  obtain rfl := of_decide_eq_true named
  exact ⟨before, after, split, fun p hp same => by simpa [same] using others p hp⟩

variable (r : Request) (name default : String)

theorem says_query : Says r.target.pairs name default (r.query name default) := by
  unfold Request.query Request.queryParam
  split
  · next value h =>
    obtain ⟨before, after, first, others⟩ := lookup_eq_some h
    split
    · next empty =>
      rw [String.isEmpty_iff] at empty
      exact .empty (empty ▸ first) others
    · next nonempty => exact .given first others (fun empty => nonempty (String.isEmpty_iff.mpr empty))
  · next h =>
    have none_named := List.find?_eq_none.mp (Option.map_eq_none_iff.mp h)
    exact .absent fun p hp same => none_named p hp (decide_eq_true same)

/-- A parameter is read from what the request says, the default included. -/
theorem parameter_eq {n : Nat} (read : number? default = some n) : parameter r name n =
    match number? (r.query name default) with
    | some m => .ok m
    | none => .error (.badRequest s!"invalid {name} format, {name}[{r.query name default}]") := by
  cases given : r.queryParam name with
  | none =>
    have said : r.query name default = default := by simp only [Request.query, given]
    simp only [parameter, given, said, read]
  | some raw =>
    by_cases empty : raw.isEmpty = true
    · have said : r.query name default = default := by simp only [Request.query, given, if_pos empty]
      simp only [parameter, given, said, read, if_pos empty]
    · have said : r.query name default = raw := by simp only [Request.query, given, if_neg empty]
      rw [said, parameter, given]
      exact if_neg empty

/-! ## The page -/

inductive Fault (page size : String) : Failure → Prop
  | malformed (number : ∀ n, Text.Spells page n → 2 ^ 32 ≤ n) :
    Fault page size (.request .badRequest s!"invalid page format, page[{page}]")
  | zero (number : Text.Spells page 0) :
    Fault page size (.request .badRequest "page must be at least 1, page[0]")
  /-- Only where nothing is wrong with the page. -/
  | malformedSize {n : Nat} (fine : Text.Spells page n ∧ n < 2 ^ 32) (positive : 1 ≤ n)
      (number : ∀ n, Text.Spells size n → 2 ^ 32 ≤ n) :
    Fault page size (.request .badRequest s!"invalid size format, size[{size}]")

/-- The page is read first, and the size only if there is nothing wrong with the page. -/
theorem ofRequest_eq {page size : String} (hpage : r.query "page" "1" = page) (hsize : r.query "size" "10" = size) :
    ofRequest r = match number? page, number? size with
      | none, _ => .error (.request .badRequest s!"invalid page format, page[{page}]")
      | some 0, _ => .error (.request .badRequest "page must be at least 1, page[0]")
      | some (_ + 1), none => .error (.request .badRequest s!"invalid size format, size[{size}]")
      | some (n + 1), some m => .ok ⟨n + 1, m⟩ := by
  subst hpage hsize
  have one : number? "1" = some 1 := rfl
  have ten : number? "10" = some 10 := rfl
  rw [ofRequest, parameter_eq r "page" "1" one, parameter_eq r "size" "10" ten]
  rcases number? (r.query "page" "1") with _ | _ | n
  · rfl
  · rfl
  · cases number? (r.query "size" "10") <;> rfl

theorem ofRequest_eq_ok {page : Page} : ofRequest r = .ok page ↔
    number? (r.query "page" "1") = some page.number ∧ 1 ≤ page.number ∧
      number? (r.query "size" "10") = some page.size := by
  rw [ofRequest_eq r rfl rfl]
  obtain ⟨number, size⟩ := page
  rcases number? (r.query "page" "1") with _ | _ | n
  · simp
  · simp
    omega
  · cases number? (r.query "size" "10") with
    | none => simp
    | some m => simp; omega

theorem below_limit {r : Request} {page : Page} (asked : ofRequest r = .ok page) :
    page.number < 2 ^ 32 ∧ page.size < 2 ^ 32 := by
  obtain ⟨number, -, size⟩ := (ofRequest_eq_ok r).mp asked
  exact ⟨(number?_eq_some.mp number).2, (number?_eq_some.mp size).2⟩

/-- Which page is asked for is said in the target alone. -/
theorem ofRequest_congr {r r' : Request} (h : r.target = r'.target) : ofRequest r = ofRequest r' := by
  simp only [ofRequest, parameter, Request.queryParam, h]

theorem ofRequest_eq_error {e : Failure} :
    ofRequest r = .error e ↔ Fault (r.query "page" "1") (r.query "size" "10") e := by
  constructor
  · intro h
    rw [ofRequest_eq r rfl rfl] at h
    split at h
    · next number =>
      cases h
      exact .malformed (number?_eq_none.mp number)
    · next number =>
      cases h
      exact .zero (number?_eq_some.mp number).1
    · next n number size =>
      cases h
      exact .malformedSize (number?_eq_some.mp number) (Nat.le_add_left 1 n) (number?_eq_none.mp size)
    · cases h
  · rintro (number | number | @⟨n, number, positive, size⟩)
    · rw [ofRequest_eq r rfl rfl, number?_eq_none.mpr number]
    · rw [ofRequest_eq r rfl rfl, number?_eq_some.mpr ⟨number, by decide⟩]
    · obtain ⟨m, rfl⟩ := Nat.exists_eq_add_of_le' positive
      rw [ofRequest_eq r rfl rfl, number?_eq_some.mpr number, number?_eq_none.mpr size]

/-- **Which page a request asks for.** What the request says for `page` and `size` is read, the defaults included.
There is a page just if both are an optional plus sign and digits of a number below the limit and that of the page is not
zero; the page then has these numbers. Otherwise the failure names the page if that is at fault, and the size only if the
page is fine; it quotes what is no number, or too large a one. -/
theorem page_of_query (r : Request) :
    Says r.target.pairs "page" "1" (r.query "page" "1") ∧ Says r.target.pairs "size" "10" (r.query "size" "10") ∧
    (∀ page, ofRequest r = .ok page ↔
      (Text.Spells (r.query "page" "1") page.number ∧ page.number < 2 ^ 32 ∧ 1 ≤ page.number) ∧
        Text.Spells (r.query "size" "10") page.size ∧ page.size < 2 ^ 32) ∧
    ∀ e, ofRequest r = .error e ↔ Fault (r.query "page" "1") (r.query "size" "10") e := by
  refine ⟨says_query r "page" "1", says_query r "size" "10", fun page => ?_, fun e => ofRequest_eq_error r⟩
  rw [ofRequest_eq_ok, number?_eq_some, number?_eq_some]
  tauto

/-- A zero is no page in any spelling, and a size that is repeated counts once. -/
example : (ofRequest { method := .get, target := .parse "/v1/beers?page=%2B00&size=7&size=8" } =
      .error (.request .badRequest "page must be at least 1, page[0]")) ∧
    ofRequest { method := .get, target := .parse "/v1/beers?page=&size=007&size=8" } = .ok ⟨1, 7⟩ := by
  decide +kernel

end Page

end JsonService
