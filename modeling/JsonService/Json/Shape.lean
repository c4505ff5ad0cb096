import JsonService.Json.Mismatch

/-!
# Shapes

Readers of typed content from a JSON value. A shape is a function of the value: it gives the content or
says how the value misses the shape. A record may also be written as a list of its fields in order.
Models the readers derived with `Deserialize` on top of `serde_json::Value`.
-/
namespace JsonService.Json

/-- A reader of typed content. -/
abbrev Shape (α : Type) := Json → Except Mismatch α

namespace Shape

/-- The value is not of the type asked for. -/
def wrong (v : Json) (expected : String) : Except Mismatch α := .error (.type v.found expected)

/-- Any value, as it is. -/
def any : Shape Json := .ok

def text : Shape String
  | .text s => .ok s
  | v => wrong v "a string"

def bool : Shape Bool
  | .bool b => .ok b
  | v => wrong v "a boolean"

/-- A whole number within bounds; `name` is what messages call it. -/
def integer (name : String) (least greatest : Int) : Shape Int
  | .number (.whole n) =>
    if least ≤ n ∧ n ≤ greatest then .ok n else .error (.value (.number (.whole n)) name)
  | v => wrong v name

def power (n : Nat) : Int := (Nat.pow 2 n : Nat)

def unsigned (bits : Nat) : Shape Nat := fun v =>
  (integer s!"u{bits}" 0 (power bits - 1) v).map Int.toNat

def signed (bits : Nat) : Shape Int := integer s!"i{bits}" (-power (bits - 1)) (power (bits - 1) - 1)

/-- A whole number as a single. -/
def singleOfInt (n : Int) : Float32 :=
  if n < 0 then (Int64.ofInt n).toFloat32 else (UInt64.ofNat n.toNat).toFloat32

/-- A single-precision number: any number, rounded. -/
def single : Shape Float32
  | .number (.whole n) => .ok (singleOfInt n)
  | .number (.double x) => .ok x.toFloat32
  | .number (.single x) => .ok x
  | v => wrong v "f32"

/-- A value that may be null. -/
def optional (shape : Shape α) : Shape (Option α)
  | .null => .ok none
  | v => (shape v).map some

def list (item : Shape α) : Shape (List α)
  | .list vs => vs.mapM item
  | v => wrong v "a sequence"

/-- Exactly two items. -/
def pair (first : Shape α) (second : Shape β) : Shape (α × β)
  | .list [] => .error (.length 0 "a tuple of size 2")
  | .list (v :: vs) => do
    let a ← first v
    match vs with
    | [] => .error (.length 1 "a tuple of size 2")
    | w :: ws =>
      let b ← second w
      if ws.isEmpty then .ok (a, b) else .error (.length (ws.length + 2) "fewer elements in array")
  | v => wrong v "a tuple of size 2"

/-- Members with arbitrary keys. -/
def table (item : Shape α) : Shape (List (String × α))
  | .object members => members.mapM fun (k, v) => (item v).map (k, ·)
  | v => wrong v "a map"

def unit : Shape Unit
  | .null => .ok ()
  | v => wrong v "unit"

def variant (variants : List (String × α)) : Shape α
  | .text name => choose name
  | .object [(name, v)] => do
    let a ← choose name
    unit v
    return a
  | .object _ => .error (.value .object "map with a single key")
  | v => wrong v "string or map"
where
  /-- The variant of a name. -/
  choose (name : String) : Except Mismatch α :=
    match variants.find? (·.1 = name) with
    | some (_, a) => .ok a
    | none => .error (.unknownVariant name (variants.map (·.1)))

/-- What a missing field means. -/
inductive Absence where
  /-- The field keeps the value the record starts with, also where a list is too short. -/
  | defaulted
  /-- The field keeps the value the record starts with, but a list has to reach it. -/
  | optional
  | refused
  deriving DecidableEq

/-- A field of a record that is being filled. -/
structure Field (σ : Type) where
  name : String
  read : Json → Except Mismatch (σ → σ)
  absence : Absence := .refused

def field (name : String) (shape : Shape α) (set : α → σ → σ) (absence : Absence := .defaulted) :
    Field σ where
  name := name
  read := fun v => (shape v).map set
  absence := absence

/-- A record: its name in messages, what it holds before any field is read, and its fields. -/
structure Record (σ : Type) where
  name : String
  start : σ
  fields : List (Field σ)
  /-- Whether a member that is no field is refused. -/
  closed : Bool := false

namespace Record

/-- Fills the record from the members of an object, in their order. -/
def readMembers (r : Record σ) (s : σ) : List (String × Json) → Except Mismatch σ
  | [] => .ok s
  | (k, v) :: rest =>
    match r.fields.find? (·.name = k) with
    | some f => do
      let set ← f.read v
      r.readMembers (set s) rest
    | none =>
      if r.closed then .error (.unknownField k (r.fields.map (·.name)))
      else r.readMembers s rest

/-- The first field that has to be there and is not. -/
def missing? (r : Record σ) (members : List (String × Json)) : Option String :=
  (r.fields.find? fun f => f.absence = .refused ∧ (Entries.get? f.name members).isNone).map (·.name)

/-- How messages name the record and the number of its fields. -/
def sized (r : Record σ) : String := s!"struct {r.name} with {r.fields.length} elements"

/-- Fills fields from the items of a list, in the fields' order; `done` have been filled. -/
def readItems (r : Record σ) (s : σ) (done : Nat) : List (Field σ) → List Json → Except Mismatch σ
  | [], [] => .ok s
  | [], vs => .error (.length (done + vs.length) "fewer elements in array")
  | f :: fs, [] =>
    if f.absence = .defaulted then r.readItems s (done + 1) fs []
    else .error (.length done r.sized)
  | f :: fs, v :: vs => do
    let set ← f.read v
    r.readItems (set s) (done + 1) fs vs

/-- Reads the record from an object or a list. -/
def shape (r : Record σ) : Shape σ
  | .object members => do
    let s ← r.readMembers r.start members
    match r.missing? members with
    | some name => .error (.missingField name)
    | none => return s
  | .list vs => r.readItems r.start 0 r.fields vs
  | v => wrong v s!"struct {r.name}"

end Record

end Shape

end JsonService.Json
