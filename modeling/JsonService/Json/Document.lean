import JsonService.Json.Shape
import JsonService.Json.Token

/-!
# Typed documents

Readers of typed content straight from the tokens of a text. They report the first fault of the text,
whether of syntax or of shape, with its place, and skip the members they do not know without reading their
values. Models the readers derived with `Deserialize` on top of `serde_json`.
-/
namespace JsonService.Json

/-- Reads something from the start of some tokens of a text of `size` bytes. -/
abbrev Document (α : Type) := (size : Nat) → List Token → Except Located (α × List Token)

namespace Document

/-- A mismatch as a fault of the text. -/
def misfit (m : Mismatch) (place : Nat) : Except Located α := .error ⟨.content m.message, place⟩

/-- The fault of a token at which something else was expected. -/
def refuse (t : Token) (f : Fault) : Except Located α := .error ⟨f, t.first + 1⟩

/-- A token that begins a value of another type. A list or object is left unread. -/
def wrong (t : Token) (expected : String) : Except Located α :=
  match t.kind with
  | .null => misfit (.type .null expected) t.last
  | .bool b => misfit (.type (.bool b) expected) t.last
  | .number (.ok n) => misfit (.type (.number n) expected) t.last
  | .number (.error e) => .error e
  | .text (.ok s) => misfit (.type (.text s) expected) t.last
  | .text (.error e) => .error e
  | .openList => misfit (.type .list expected) t.first
  | .openObject => misfit (.type .object expected) t.first
  | .broken _ e _ => .error e
  | .closeList | .closeObject | .comma | .colon => refuse t .expectedValue

def text (expected : String) : Document String
  | size, [] => .error ⟨.endInValue, size⟩
  | _, t :: ts => match t.kind with
    | .text (.ok s) => .ok (s, ts)
    | _ => wrong t expected

def unit : Document Unit
  | size, [] => .error ⟨.endInValue, size⟩
  | _, t :: ts => match t.kind with
    | .null => .ok ((), ts)
    | _ => wrong t "unit"

/-- The same content after a function. -/
def map (f : α → β) (d : Document α) : Document β := fun size ts => do
  let (a, ts) ← d size ts
  return (f a, ts)

def optional (d : Document α) : Document (Option α)
  | size, [] => .error ⟨.endInValue, size⟩
  | size, t :: ts => match t.kind with
    | .null => .ok (none, ts)
    | _ => d.map some size (t :: ts)

def colon : Document Unit
  | size, [] => .error ⟨.endInObject, size⟩
  | _, t :: ts => match t.kind with
    | .colon => .ok ((), ts)
    | _ => refuse t .expectedColon

/-! ## Skipping -/

/-- What a value that is skipped needs next. -/
inductive Need where
  | value
  /-- A first item or key, or the end of the innermost list or object. -/
  | first
  | key
  | colon
  /-- A comma, or the end of the innermost list or object. -/
  | comma

/-- How far a value has been skipped: the objects (true) and lists (false) that are open, the innermost
first, and what comes next. -/
structure Skip where
  opened : List Bool := []
  need : Need := .value

namespace Skip

def isOver (s : Skip) : Bool :=
  match s.opened, s.need with
  | [], .comma => true
  | _, _ => false

/-- The fault of a text that ends here. -/
def cutOff (s : Skip) : Fault :=
  match s.need with
  | .value => .endInValue
  | _ => if s.opened.headD true then .endInObject else .endInList

/-- The first token of a value. -/
def takeValue (opened : List Bool) (t : Token) : Except Located Skip :=
  match t.kind with
  | .null | .bool _ | .number _ | .text _ => .ok ⟨opened, .comma⟩
  | .openList => .ok ⟨false :: opened, .first⟩
  | .openObject => .ok ⟨true :: opened, .first⟩
  | .broken _ _ e => .error e
  | .closeList | .closeObject | .comma | .colon => refuse t .expectedValue

def takeKey (opened : List Bool) (t : Token) : Except Located Skip :=
  match t.kind with
  | .text _ => .ok ⟨opened, .colon⟩
  | .broken true _ e => .error e
  | _ => refuse t .keyNotText

/-- One token further. -/
def step (s : Skip) (t : Token) : Except Located Skip :=
  match s.need, s.opened, t.kind with
  | .first, true :: rest, .closeObject => .ok ⟨rest, .comma⟩
  | .first, false :: rest, .closeList => .ok ⟨rest, .comma⟩
  | .first, true :: _, _ => takeKey s.opened t
  | .first, _, _ => takeValue s.opened t
  | .value, _, _ => takeValue s.opened t
  | .key, _, _ => takeKey s.opened t
  | .colon, _, .colon => .ok ⟨s.opened, .value⟩
  | .colon, _, _ => refuse t .expectedColon
  | .comma, true :: _, .comma => .ok ⟨s.opened, .key⟩
  | .comma, false :: _, .comma => .ok ⟨s.opened, .value⟩
  | .comma, true :: rest, .closeObject => .ok ⟨rest, .comma⟩
  | .comma, false :: rest, .closeList => .ok ⟨rest, .comma⟩
  | .comma, true :: _, _ => refuse t .expectedCommaOrBrace
  | .comma, _, _ => refuse t .expectedCommaOrBracket

/-- Skips the rest of the value. -/
def run (size : Nat) (s : Skip) : List Token → Except Located (Unit × List Token)
  | [] => if s.isOver then .ok ((), []) else .error ⟨s.cutOff, size⟩
  | t :: ts => if s.isOver then .ok ((), t :: ts) else do run size (← s.step t) ts

end Skip

/-- Any value, skipped. -/
def skip : Document Unit := fun size ts => Skip.run size {} ts

/-! ## Lists and records -/

/-- Whether a list goes on: what follows an item, up to the start of the next one. After the last item the
end of the list is still to come. -/
def another (first : Bool) : Document Bool
  | size, [] => .error ⟨.endInList, size⟩
  | size, t :: ts => match t.kind with
    | .closeList => .ok (false, t :: ts)
    | .comma =>
      if first then .ok (true, t :: ts)
      else match ts with
        | [] => .error ⟨.endInValue, size⟩
        | u :: _ => match u.kind with
          | .closeList => refuse u .trailingComma
          | _ => .ok (true, ts)
    | _ => if first then .ok (true, t :: ts) else refuse t .expectedCommaOrBracket

def endList : Document Unit
  | size, [] => .error ⟨.endInList, size⟩
  | size, t :: ts => match t.kind with
    | .closeList => .ok ((), ts)
    | .comma => match ts with
      | [] => .error ⟨.trailingCharacters, size⟩
      | u :: _ => match u.kind with
        | .closeList => refuse u .trailingComma
        | _ => refuse u .trailingCharacters
    | _ => refuse t .trailingCharacters

/-- The items of a list and its end, at most `fuel` of them. -/
def items (item : Document α) : Nat → Bool → Document (List α)
  | 0, _, size, _ => .error ⟨.endInList, size⟩
  | fuel + 1, first, size, ts => do
    let (more, ts) ← another first size ts
    if more then
      let (a, ts) ← item size ts
      let (rest, ts) ← items item fuel false size ts
      return (a :: rest, ts)
    else
      let ((), ts) ← endList size ts
      return ([], ts)

/-- A list. Each item takes a token, so the tokens' number is fuel enough. -/
def list (item : Document α) : Document (List α)
  | size, [] => .error ⟨.endInValue, size⟩
  | size, t :: ts => match t.kind with
    | .openList => items item (ts.length + 1) true size ts
    | _ => wrong t "a sequence"

/-- A field of a record that is being filled. -/
structure Field (σ : Type) where
  name : String
  read : Document (σ → σ)
  absence : Shape.Absence := .refused

/-- A record: its name in messages, what it holds before any field is read, and its fields. -/
structure Record (σ : Type) where
  name : String
  start : σ
  fields : List (Field σ)

namespace Record

def key (first : Bool) : Document (Option String)
  | size, [] => .error ⟨.endInObject, size⟩
  | size, t :: ts => match t.kind with
    | .closeObject => .ok (none, t :: ts)
    | .comma =>
      if first then refuse t .keyNotText
      else match ts with
        | [] => .error ⟨.endInValue, size⟩
        | u :: us => match u.kind with
          | .closeObject => refuse u .trailingComma
          | _ => spelled u us
    | _ => if first then spelled t ts else refuse t .expectedCommaOrBrace
where
  /-- The key that a token spells. -/
  spelled (t : Token) (ts : List Token) : Except Located (Option String × List Token) :=
    match t.kind with
    | .text value => value.map fun k => (some k, ts)
    | .broken true e _ => .error e
    | _ => refuse t .keyNotText

/-- Where a fault is noticed that comes to light before the next token: after the end of the object, or
before anything else. -/
def noticed (size : Nat) : List Token → Nat
  | [] => size
  | t :: _ => match t.kind with
    | .closeObject => t.last
    | _ => t.first

/-- Fills the record from the members of an object and takes its end, at most `fuel` members. `seen` are the
fields filled so far. -/
def members (r : Record σ) : Nat → Bool → List String → σ → Document σ
  | 0, _, _, _, size, _ => .error ⟨.endInObject, size⟩
  | fuel + 1, first, seen, s, size, ts => do
    match ← key first size ts with
    | (none, ts) =>
      match r.fields.find? fun f => f.absence = .refused ∧ ¬ seen.contains f.name with
      | some f => misfit (.missingField f.name) (noticed size ts)
      | none => return (s, ts.drop 1)
    | (some k, ts) =>
      match r.fields.find? (·.name = k) with
      | none =>
        let ((), ts) ← colon size ts
        let ((), ts) ← skip size ts
        members r fuel false seen s size ts
      | some f =>
        if seen.contains k then misfit (.duplicateField k) (noticed size ts)
        else
          let ((), ts) ← colon size ts
          let (set, ts) ← f.read size ts
          members r fuel false (k :: seen) (set s) size ts

/-- Fills fields from the items of a list, in the fields' order, and takes its end; `done` have been
filled. -/
def items (r : Record σ) (s : σ) (done : Nat) : List (Field σ) → Document σ
  | [], size, ts => do
    let ((), ts) ← endList size ts
    return (s, ts)
  | f :: fs, size, ts => do
    let (more, ts) ← another (done = 0) size ts
    if more then
      let (set, ts) ← f.read size ts
      r.items (set s) (done + 1) fs size ts
    else if f.absence = .defaulted then r.items s (done + 1) fs size ts
    else misfit (.length done s!"struct {r.name} with {r.fields.length} elements") ((ts.map (·.last)).headD size)

/-- Reads the record from an object or a list. Each member takes a token, so the tokens' number is fuel
enough. -/
def document (r : Record σ) : Document σ
  | size, [] => .error ⟨.endInValue, size⟩
  | size, t :: ts => match t.kind with
    | .openObject => r.members (ts.length + 1) true [] r.start size ts
    | .openList => r.items r.start 0 r.fields size ts
    | _ => wrong t s!"struct {r.name}"

end Record

/-- One of some names, written as a text, or as the only key of an object whose value is nothing. -/
def variant (variants : List (String × α)) : Document α
  | size, [] => .error ⟨.endInValue, size⟩
  | size, t :: ts => match t.kind with
    | .text _ => choose size (t :: ts)
    | .broken true e _ => .error e
    | .openObject => do
      let (a, ts) ← chooseKey size ts
      let ((), ts) ← colon size ts
      let ((), ts) ← unit size ts
      match ts with
      | [] => .error ⟨.endInObject, size⟩
      | u :: us => match u.kind with
        | .closeObject => return (a, us)
        | _ => .error ⟨.expectedValue, u.first⟩
    | _ => refuse t .expectedValue
where
  choose : Document α := fun size ts => do
    let (name, rest) ← text "variant identifier" size ts
    match variants.find? (·.1 = name) with
    | some (_, a) => return (a, rest)
    | none => misfit (.unknownVariant name (variants.map (·.1))) ((ts.map (·.last)).headD size)
  /-- The variant that the key of an object names. -/
  chooseKey : Document α
    | size, [] => .error ⟨.endInObject, size⟩
    | size, t :: ts => match t.kind with
      | .text _ | .broken true _ _ => choose size (t :: ts)
      | .closeObject => refuse t .expectedValue
      | _ => refuse t .keyNotText

/-- Reads a whole text; a fault is told in words. -/
def parse (d : Document α) (bs : List UInt8) : Except String α :=
  match d bs.length (tokens bs) with
  | .ok (a, []) => .ok a
  | .ok (_, t :: _) => .error ((⟨.trailingCharacters, t.first + 1⟩ : Located).message bs)
  | .error e => .error (e.message bs)

end Document

end JsonService.Json
