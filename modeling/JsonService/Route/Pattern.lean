import JsonService.Text.Utf8

/-!
# Route patterns

A pattern is a list of cells, bytes that know whether they were written twice to lose their meaning: a
doubled brace is a brace. Parameters stand in single braces. Within a tree of routes every parameter has a
name of one letter, given by its place, so that routes that name a parameter differently share it; the
names of a route are kept beside it. Patterns are read as `matchit` reads them (`find_wildcard`,
`normalize_params`).
-/
namespace JsonService.Route

/-- A byte of a pattern. -/
structure Cell where
  byte : UInt8
  /-- Whether the byte is a brace that stands for itself. -/
  escaped : Bool := false
  deriving DecidableEq, Repr

abbrev Names := List (List UInt8)

def slash : UInt8 := 0x2F
def star : UInt8 := 0x2A
def openBrace : UInt8 := 0x7B
def closeBrace : UInt8 := 0x7D

/-- Why a route is not registered. -/
inductive Fault where
  /-- A parameter without a proper name, or a brace without its partner. -/
  | parameter
  /-- Two parameters in one segment. -/
  | segment
  /-- A catch-all before the end. -/
  | catchAll
  /-- A route that was registered before and leaves the two no order. -/
  | conflict (route : String)
  /-- More parameters than there are letters; this one is not reported but ends the process. -/
  | tooMany
  deriving DecidableEq, Repr

/-- The words for a fault. -/
def Fault.message : Fault → String
  | .parameter => "Parameters must be registered with a valid name"
  | .segment => "Only one parameter is allowed per path segment"
  | .catchAll => "Catch-all parameters are only allowed at the end of a route"
  | .conflict route => s!"Insertion failed due to conflict with previously registered route: {route}"
  | .tooMany => "Too many route parameters."

namespace Cell

def opens (c : Cell) : Bool := c.byte = openBrace ∧ !c.escaped

def closes (c : Cell) : Bool := c.byte = closeBrace ∧ !c.escaped

end Cell

/-- The cells of a path: two equal braces are one that stands for itself. -/
def cells : List UInt8 → List Cell
  | a :: b :: rest =>
    if (a = openBrace ∨ a = closeBrace) ∧ a = b then ⟨a, true⟩ :: cells rest
    else ⟨a, false⟩ :: cells (b :: rest)
  | [a] => [⟨a, false⟩]
  | [] => []

def bytes (cs : List Cell) : List UInt8 := cs.map (·.byte)

/-- The length of a parameter up to its closing brace, after the opening brace and the first cell of its
name. `last` is the byte before. -/
def parameterEnd (last : UInt8) : List Cell → Except Fault Nat
  | [] => .error .parameter
  | c :: rest =>
    if c.closes then if last = star then .error .parameter else .ok 1
    else if c.byte = star ∨ c.byte = slash then .error .parameter
    else (parameterEnd c.byte rest).map (· + 1)

/-- The length of the parameter that some cells begin with, after its opening brace. -/
def parameterLength : List Cell → Except Fault Nat
  | [] => .error .parameter
  | c :: rest =>
    if c.byte = closeBrace then .error .parameter
    else (parameterEnd c.byte rest).map (· + 2)

/-- Where the first parameter begins and how long it is. -/
def findParameter : List Cell → Except Fault (Option (Nat × Nat))
  | [] => .ok none
  | c :: rest =>
    if c.closes then .error .parameter
    else if c.opens then (parameterLength rest).map fun n => some (0, n)
    else (findParameter rest).map (·.map fun (start, n) => (start + 1, n))

/-- The cells with `count` of them from `start` on replaced. The mark of the cell right after those stays
in its place. -/
def replaceCells (cs : List Cell) (start count : Nat) (replacement : List UInt8) : List Cell :=
  let after := cs.drop (start + count)
  let marked := (after.head?.map (·.escaped)).getD false
  let out := cs.take start ++ replacement.map (⟨·, false⟩) ++ after.modifyHead ({ · with escaped := false })
  if marked then out.modify (start + count) ({ · with escaped := true }) else out

/-- The letter of the `n`-th parameter. -/
def letter (n : Nat) : UInt8 := 0x61 + UInt8.ofNat n

/-- How many parameters a route may have. -/
def mostParameters : Nat := 25

/-- Renames the parameters from `start` on, of which `done` come before, and keeps their names. Each step
leaves at least one cell less to look at, so the route's length is fuel enough. -/
def normalizeFrom : Nat → Nat → Names → List Cell → Except Fault (List Cell × Names)
  | 0, _, names, cs => .ok (cs, names)
  | fuel + 1, start, names, cs =>
    match findParameter (cs.drop start) with
    | .error e => .error e
    | .ok none => .ok (cs, names)
    | .ok (some (offset, count)) =>
      let place := start + offset
      let name := bytes ((cs.drop (place + 1)).take (count - 2))
      if name.head? = some star then normalizeFrom fuel (place + count) names cs
      else if mostParameters ≤ names.length then .error .tooMany
      else
        normalizeFrom fuel (place + 3) (names ++ [name])
          (replaceCells cs place count [openBrace, letter names.length, closeBrace])

/-- A route with its parameters renamed, and their names. -/
def normalize (cs : List Cell) : Except Fault (List Cell × Names) := normalizeFrom (cs.length + 1) 0 [] cs

/-- Gives parameters their names back, from `start` on, as far as there are names. -/
def denormalizeFrom (start : Nat) (cs : List Cell) : Names → List Cell
  | [] => cs
  | name :: names =>
    match findParameter (cs.drop start) with
    | .ok (some (offset, count)) =>
      let place := start + offset
      denormalizeFrom (place + name.length + 2)
        (replaceCells cs place count (openBrace :: name ++ [closeBrace])) names
    | _ => cs

/-- The text of a route whose parameters have these names. -/
def describe (cs : List Cell) (names : Names) : String :=
  String.ofList (Text.Utf8.decodeLossy (bytes (denormalizeFrom 0 cs names)))

end JsonService.Route
