import JsonService.Proofs.Text.Letters
import JsonService.Response

/-!
# Responses on the wire

A response is built in steps and ended with its content. Its headers are a list of names and values as they were given;
on the wire names are small, and what may be no header is left out. A client looks for a name in any case and finds the
values under it.

**Headers.** `Proper` is the rule of the standard for a field: a name of visible characters none of which divides
fields, and a value without control characters but the tab.

**Results.**
* `Header.name?_congr`: names that differ in case only are kept as the same name.
* `isSome_wireHeader?`: just the proper headers go on the wire.
* `values_wire`: what a client finds under a name are the values of the proper headers of that name, in order.
* `status_build`, `headers_build`, `body_build`: what a response consists of, however it was built.
* `reaches_wire`: so everything that was put into a response reaches the wire, but for the headers that are not proper.
-/
namespace JsonService

/-! ## Names of headers -/

namespace Header

theorem isToken_toLower (c : Char) : isToken c.toLower = isToken c := by
  have letters : ∀ n ∈ List.range' 65 26, isToken (Char.ofNat n).toLower = isToken (Char.ofNat n) := by
    decide +kernel
  rcases Text.toLower_cases c with small | ⟨n, hn, rfl⟩
  · rw [small]
  · exact letters n hn

/-- Names that differ in case only are kept as the same name. -/
theorem name?_congr {a b : String} (h : sameName a b = true) : name? a = name? b := by
  have small : Text.lower a = Text.lower b := of_decide_eq_true h
  have same : a.toList.map Char.toLower = b.toList.map Char.toLower := by
    simpa only [Text.lower, String.toList_ofList] using congrArg String.toList small
  have length : a.length = b.length := by
    have mapped := congrArg List.length same
    rwa [List.length_map, List.length_map, String.length_toList, String.length_toList] at mapped
  have empty : a.isEmpty = b.isEmpty := by
    rw [Bool.eq_iff_iff, String.isEmpty_iff, String.isEmpty_iff, ← String.length_eq_zero_iff, length,
      String.length_eq_zero_iff]
  have tokens : ∀ s : String, s.toList.all isToken = (s.toList.map Char.toLower).all isToken := by
    intro s
    rw [List.all_map]
    exact List.all_congr rfl fun c => (isToken_toLower c).symm
  rw [name?, name?, empty, length, tokens a, tokens b, same, small]

theorem name?_eq_some {s name : String} (h : name? s = some name) : name = Text.lower s := by
  unfold name? at h
  split at h
  · cases h
  · exact (Option.some.inj h).symm

theorem sameName_of_name? {s kept : String} (h : name? s = some kept) (name : String) :
    sameName kept name = sameName s name := by
  rw [name?_eq_some h, sameName, sameName, Text.lower_lower]

/-! ## What may be a header -/

/-- The visible characters that divide the parts of a field. -/
def delimiters : List Char :=
  ['"', '(', ')', ',', '/', ':', ';', '<', '=', '>', '?', '@', '[', '\\', ']', '\x7b', '\x7d']

/-- A token: visible characters of ASCII, at least one, and no delimiter. -/
def Token (s : String) : Prop := s ≠ "" ∧ ∀ c ∈ s.toList, ('!' ≤ c ∧ c ≤ '~') ∧ c ∉ delimiters

/-- A value has no control character but the tab. -/
def Clean (s : String) : Prop := ∀ b ∈ Text.Utf8.bytes s, (b < 32 → b = 9) ∧ b ≠ 127

/-- A name and a value that make a header. -/
def Proper (h : String × String) : Prop := (Token h.1 ∧ h.1.length ≤ longestName) ∧ Clean h.2

instance (s : String) : Decidable (Token s) := inferInstanceAs (Decidable (_ ∧ _))

instance (s : String) : Decidable (Clean s) := inferInstanceAs (Decidable (∀ _ ∈ _, _))

instance : DecidablePred Proper := fun _ => inferInstanceAs (Decidable (_ ∧ _))

theorem toNat_lt_of_isAlphanum {c : Char} (h : c.isAlphanum = true) : c.toNat < 128 := by
  delta Char.isAlphanum Char.isAlpha Char.isUpper Char.isLower Char.isDigit at h
  simp only [ge_iff_le, UInt32.le_iff_toNat_le, Bool.or_eq_true, Bool.and_eq_true, decide_eq_true_eq] at h
  show c.val.toNat < 128
  have upper : 'Z'.val.toNat < 128 := by decide
  have lower : 'z'.val.toNat < 128 := by decide
  have digit : '9'.val.toNat < 128 := by decide
  omega

/-- A letter, a digit or one of the fifteen marks: a visible character that is no delimiter. -/
theorem isToken_iff (c : Char) : isToken c = true ↔ ('!' ≤ c ∧ c ≤ '~') ∧ c ∉ delimiters := by
  by_cases small : c.toNat < 128
  · exact Text.ascii_forall (P := fun c => isToken c = true ↔ ('!' ≤ c ∧ c ≤ '~') ∧ c ∉ delimiters)
      (by decide +kernel) small
  · have marks : "!#$%&'*+-.^_`|~".toList.all (fun m => m.toNat < 128) := by decide +kernel
    have noToken : ¬isToken c = true := by
      intro h
      rcases Bool.or_eq_true_iff.mp h with letter | mark
      · exact small (toNat_lt_of_isAlphanum letter)
      · exact small (of_decide_eq_true (List.all_eq_true.mp marks c (List.contains_iff_mem.mp mark)))
    have above : ¬c ≤ '~' := fun h => small (Nat.lt_succ_of_lt (Nat.lt_succ_of_le h))
    exact ⟨fun h => absurd h noToken, fun h => absurd h.1.2 above⟩

theorem isValueByte_iff (b : UInt8) : isValueByte b = true ↔ (b < 32 → b = 9) ∧ b ≠ 127 := by
  rw [isValueByte, decide_eq_true_iff, ← UInt8.not_lt]
  constructor
  · rintro (⟨h, h'⟩ | rfl)
    · exact ⟨fun low => absurd low h, h'⟩
    · decide
  · rintro ⟨h, h'⟩
    by_cases low : b < 32
    · exact .inr (h low)
    · exact .inl ⟨low, h'⟩

theorem isSome_name? (s : String) : (name? s).isSome = true ↔ Token s ∧ s.length ≤ longestName := by
  have tokens : s.toList.all isToken = true ↔ ∀ c ∈ s.toList, ('!' ≤ c ∧ c ≤ '~') ∧ c ∉ delimiters := by
    simp only [List.all_eq_true, isToken_iff]
  rw [name?, Token, ← tokens, ne_eq, ← String.isEmpty_iff]
  split <;> grind

theorem isValue_iff (s : String) : isValue s = true ↔ Clean s := by
  simp only [isValue, List.all_eq_true, isValueByte_iff, Clean]

end Header

namespace Response

/-! ## Headers on the wire -/

/-- Just the proper headers go on the wire. -/
theorem isSome_wireHeader? (h : String × String) : (wireHeader? h).isSome = true ↔ Header.Proper h := by
  rw [Header.Proper, ← Header.isSome_name?, ← Header.isValue_iff, wireHeader?]
  cases Header.name? h.1 with
  | none => simp
  | some name => cases Header.isValue h.2 <;> simp

/-- The values that a client finds under a name, in either case, in the order in which it reads them. -/
def Wire.values (w : Wire) (name : String) : List String :=
  (w.headers.filter fun h => Header.sameName h.1 name).map (·.2)

/-- A header goes on the wire under its own name and with its value, if it does. -/
theorem values_wireHeader? (h : String × String) (name : String) :
    ((wireHeader? h).toList.filter fun h => Header.sameName h.1 name).map (·.2) =
      if Header.sameName h.1 name && (wireHeader? h).isSome then [h.2] else [] := by
  rw [wireHeader?]
  cases kept : Header.name? h.1 with
  | none => simp
  | some small =>
    cases Header.isValue h.2 with
    | false => simp
    | true =>
      simp only [if_true, Option.toList_some, List.filter_cons, Header.sameName_of_name? kept]
      cases Header.sameName h.1 name <;> simp

theorem values_wire (res : Response) (name : String) : res.toWire.values name =
    (res.headers.filter fun h => Header.sameName h.1 name = true ∧ Header.Proper h).map (·.2) := by
  have goes : ∀ h : String × String, decide (Header.sameName h.1 name = true ∧ Header.Proper h) =
      (Header.sameName h.1 name && (wireHeader? h).isSome) := by
    intro h
    rw [Bool.eq_iff_iff, decide_eq_true_iff, Bool.and_eq_true_iff, isSome_wireHeader?]
  simp only [Wire.values, toWire, goes]
  induction res.headers with
  | nil => rfl
  | cons h headers ih =>
    have split : (h :: headers).filterMap wireHeader? = (wireHeader? h).toList ++ headers.filterMap wireHeader? := by
      rw [List.filterMap_cons]
      cases wireHeader? h <;> rfl
    rw [split, List.filter_append, List.map_append, values_wireHeader?, ih, List.filter_cons]
    split <;> rfl

/-- The values that a response has under a name, in either case, but for those that may be no value of a header. -/
def offered (res : Response) (name : String) : List String :=
  (res.headers.filter fun h => Header.sameName h.1 name && Header.isValue h.2).map (·.2)

/-- What a client finds under a proper name is what the response has under it. -/
theorem values_toWire (res : Response) {name : String} (proper : (Header.name? name).isSome) :
    res.toWire.values name = res.offered name := by
  rw [values_wire, offered]
  congr 1
  refine List.filter_congr fun h _ => ?_
  cases same : Header.sameName h.1 name with
  | false => simp
  | true =>
    have named := (Header.isSome_name? h.1).mp (Header.name?_congr same ▸ proper)
    simp [Header.Proper, named, ← Header.isValue_iff]

/-- What a response says of a name is what a client finds first, if all headers go on the wire. -/
theorem header_eq_head? {res : Response} (proper : ∀ h ∈ res.headers, Header.Proper h) (name : String) :
    res.header name = (res.toWire.values name).head? := by
  have all : res.headers.filter (fun h => Header.sameName h.1 name = true ∧ Header.Proper h) =
      res.headers.filter fun h => Header.sameName h.1 name :=
    List.filter_congr fun h hh => by simp [proper h hh]
  rw [values_wire, all, List.head?_map, List.head?_filter, header]

/-! ## Building -/

namespace Builder

inductive Step where
  | status (s : Status)
  | header (name value : String)

def Step.status? : Step → Option Status
  | .status s => some s
  | .header _ _ => none

def Step.header? : Step → Option (String × String)
  | .status _ => none
  | .header name value => some (name, value)

def take (b : Builder) : Step → Builder
  | .status s => b.withStatus s
  | .header name value => b.header name value

theorem status_foldl (steps : List Step) (b : Builder) :
    (steps.foldl take b).status = (steps.filterMap Step.status?).getLast?.getD b.status := by
  induction steps generalizing b with
  | nil => rfl
  | cons step steps ih =>
    rw [List.foldl_cons, ih]
    cases step with
    | status s => simp [Step.status?, take, withStatus, List.getLast?_cons]
    | header name value => simp [Step.status?, take, header]

theorem headers_foldl (steps : List Step) (b : Builder) :
    (steps.foldl take b).headers = b.headers ++ steps.filterMap Step.header? := by
  induction steps generalizing b with
  | nil => exact (List.append_nil _).symm
  | cons step steps ih =>
    rw [List.foldl_cons, ih]
    cases step with
    | status s => simp [List.filterMap_cons, Step.header?, take, withStatus]
    | header name value => simp [Step.header?, take, header]

end Builder

open Builder (Step)

inductive Content where
  | json (body : List UInt8)
  | text (s : String)
  | nothing

namespace Content

def bytes : Content → List UInt8
  | .json body => body
  | .text s => Text.Utf8.bytes s
  | .nothing => []

/-- The header that tells the media type, if there is anything. -/
def header : Content → List (String × String)
  | .json _ => [("content-type", "application/json")]
  | .text _ => [("content-type", "text/plain; charset=utf-8")]
  | .nothing => []

end Content

/-- The response that some steps and a content make. -/
def build (steps : List Step) : Content → Response
  | .json body => (steps.foldl Builder.take {}).json body
  | .text s => (steps.foldl Builder.take {}).text s
  | .nothing => (steps.foldl Builder.take {}).noBody

/-- The last status that is set; without any it is 200. -/
def lastStatus (steps : List Step) : Status := (steps.filterMap Step.status?).getLast?.getD .ok

/-- The headers as they are given, that of the content first. -/
def given (steps : List Step) (content : Content) : List (String × String) :=
  content.header ++ steps.filterMap Step.header?

section
variable (steps : List Step) (content : Content)

theorem status_build : (build steps content).status = lastStatus steps := by
  cases content <;> exact Builder.status_foldl steps {}

theorem headers_build : (build steps content).headers = given steps content := by
  have headers := Builder.headers_foldl steps {}
  rw [List.nil_append] at headers
  cases content with
  | json body => exact congrArg (("content-type", jsonType) :: ·) headers
  | text s => exact congrArg (("content-type", textType) :: ·) headers
  | nothing => exact headers

theorem body_build : (build steps content).body = content.bytes := by
  cases content <;> rfl

end

/-- A header that is not proper leaves the rest of the response as it is. -/
theorem toWire_improper {before after : List Step} {name value : String} (improper : ¬Header.Proper (name, value))
    (content : Content) :
    (build (before ++ .header name value :: after) content).toWire = (build (before ++ after) content).toWire := by
  have dropped : wireHeader? (name, value) = none := by
    rwa [← isSome_wireHeader?, Bool.not_eq_true, Option.isSome_eq_false_iff, Option.isNone_iff_eq_none] at improper
  simp only [toWire, status_build, headers_build, body_build, lastStatus, given, List.filterMap_append,
    List.filterMap_cons, Step.status?, Step.header?, dropped]

/-- **Responses reach the wire.** However a response was built, it has the last status that was set and the content as
it is, and a client finds under a name, in either case, the values of all proper headers of that name in the order in
which they were added, that of the media type first. A header that is not proper changes nothing. Where all headers are
proper, what the response itself says of a name is what a client finds first. -/
theorem reaches_wire (steps : List Step) (content : Content) :
    (build steps content).toWire.status = lastStatus steps ∧
    (build steps content).toWire.body = content.bytes ∧
    (∀ name, (build steps content).toWire.values name =
      ((given steps content).filter fun h => Header.sameName h.1 name = true ∧ Header.Proper h).map (·.2)) ∧
    (∀ before name value after, steps = before ++ .header name value :: after → ¬Header.Proper (name, value) →
      (build steps content).toWire = (build (before ++ after) content).toWire) ∧
    ∀ res : Response, (∀ h ∈ res.headers, Header.Proper h) → ∀ name,
      res.header name = (res.toWire.values name).head? := by
  refine ⟨status_build steps content, body_build steps content, fun name => ?_, ?_, fun res => header_eq_head?⟩
  · rw [values_wire, headers_build]
  · rintro before name value after rfl improper
    exact toWire_improper improper content

/-- Names in different cases are one name; a name with a blank and a value that ends a line are left out. -/
example : (build [.header "X-A" "1", .status .created, .header "bad header" "2", .header "x-b" "3\r\n",
    .header "x-a" "4"] (.text "hello")).toWire.values "X-a" = ["1", "4"] := by decide +kernel

end Response

end JsonService
