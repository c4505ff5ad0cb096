import JsonService.Route.Pattern

/-!
# Trees of routes

A compressed tree of patterns. A node stands for some literal text; below it are nodes for literal text,
told apart by their first byte and the busiest first, and at most one node for a parameter or a catch-all.
Below a parameter are the texts that may follow it within its segment, the longest first.

A search prefers literal text to a parameter at every node and comes back to the parameter if the literal
text leads nowhere. An insertion that fails part way keeps what it has added so far. The tree is that of
`matchit` (`Node::insert`, `Node::at`).
-/
namespace JsonService.Route

/-- What a route leads to, and the names of its parameters. -/
structure Leaf (α : Type) where
  value : α
  names : Names

mutual

/-- A node for literal text. -/
inductive Tree (α : Type) where
  | node (label : List Cell) (priority : Nat) (leaf : Option (Leaf α)) (branches : List (UInt8 × Tree α))
      (wild : Option (Wild α))

/-- A node for any text. -/
inductive Wild (α : Type) where
  /-- Any text up to the end of its segment or to one of the texts that may follow. -/
  | parameter (label : List Cell) (leaf : Option (Leaf α)) (suffixes : List (Tree α))
  /-- Any rest of a path. -/
  | rest (label : List Cell) (leaf : Leaf α)

end

namespace Tree

def empty : Tree α := .node [] 0 none [] none

/-- The text a node stands for. -/
def label : Tree α → List Cell
  | .node label _ _ _ _ => label

/-- How many routes have passed a node. -/
def priority : Tree α → Nat
  | .node _ priority _ _ _ => priority

end Tree

def Wild.label : Wild α → List Cell
  | .parameter label _ _ => label
  | .rest label _ => label

/-- The names kept at a node. -/
def namesOf (leaf : Option (Leaf α)) : Names := (leaf.map (·.names)).getD []

mutual

/-- The labels below a node along its first children, and the names at the last of them. -/
def Tree.firstRoute : Tree α → List Cell × Names
  | .node _ _ leaf branches wild =>
    match firstBranch branches with
    | some below => below
    | none => match firstWild wild with
      | some below => below
      | none => ([], namesOf leaf)

/-- The same, starting with the first of some branches. -/
def firstBranch : List (UInt8 × Tree α) → Option (List Cell × Names)
  | [] => none
  | (_, t) :: _ => let (cs, names) := t.firstRoute; some (t.label ++ cs, names)

/-- The same, starting with the node for any text. -/
def firstWild : Option (Wild α) → Option (List Cell × Names)
  | none => none
  | some w => let (cs, names) := w.firstRoute; some (w.label ++ cs, names)

/-- The labels below a node for any text, along its first children. -/
def Wild.firstRoute : Wild α → List Cell × Names
  | .parameter _ leaf suffixes => match firstSuffix suffixes with
    | some below => below
    | none => ([], namesOf leaf)
  | .rest _ leaf => ([], leaf.names)

/-- The same, starting with the first of some suffixes. -/
def firstSuffix : List (Tree α) → Option (List Cell × Names)
  | [] => none
  | t :: _ => let (cs, names) := t.firstRoute; some (t.label ++ cs, names)

end

/-- The conflict of a route with the node it has reached: `left` is what is left of the route there. -/
def conflict (route left label : List Cell) (names : Names) (below : List Cell × Names) : Fault :=
  if bytes left = bytes label then .conflict (describe route names)
  else
    let passed := route.take (route.length - left.length)
    let passed := if (bytes label).isSuffixOf (bytes passed) then passed else passed ++ label
    .conflict (describe (passed ++ below.1) below.2)

/-- The cells of a segment from its parameter to the slash that ends it, if one does. -/
def segmentLength (cs : List Cell) : Nat :=
  let name := cs.takeWhile (·.byte ≠ slash)
  if name.length < cs.length then name.length + 1 else cs.length

def holdsParameter (cs : List Cell) : Bool :=
  match findParameter cs with
  | .ok (some _) => true
  | _ => false

/-- Puts a text that may follow a parameter among the others, after those that are at least as long. -/
def insertSuffix (t : Tree α) (suffixes : List (Tree α)) : List (Tree α) :=
  let longer := suffixes.takeWhile fun s => t.label.length ≤ s.label.length
  longer ++ t :: suffixes.drop longer.length

/-- What an insertion comes to, beside the structure it leaves. -/
abbrev Outcome := Except Fault Unit

/-- Grows a node for the parameter of `count` cells that `cs` begin with. `grow` grows a node for the text
that follows a parameter within its segment, with the cells after the segment below it. -/
def sproutWild (grow : List Cell → List Cell → Outcome × Tree α) (leaf : Leaf α) (count : Nat)
    (cs : List Cell) : Outcome × Option (Wild α) :=
  if (bytes cs)[1]? = some star then
    if count = cs.length then (.ok (), some (.rest cs leaf)) else (.error .catchAll, none)
  else
    let length := segmentLength cs
    let suffix := (cs.take length).drop count
    if holdsParameter suffix then (.error .segment, none)
    else if suffix.isEmpty then (.ok (), some (.parameter (cs.take count) (some leaf) []))
    else
      let (outcome, t) := grow suffix (cs.drop length)
      (outcome, some (.parameter (cs.take count) none [t]))

mutual

/-- Grows a node for the cells `cs`, which are some, with everything below it. `fuel` bounds their number.
A catch-all in the wrong place leaves a node without text. -/
def sprout (leaf : Leaf α) (priority : Nat) : Nat → List Cell → Outcome × Tree α
  | 0, _ => (.ok (), .node [] priority none [] none)
  | fuel + 1, cs =>
    match findParameter cs with
    | .error e => (.error e, .node [] priority none [] none)
    | .ok none => (.ok (), .node cs priority (some leaf) [] none)
    | .ok (some (start, count)) =>
      match sproutWild (sproutSuffix leaf fuel) leaf count (cs.drop start) with
      | (.error .catchAll, none) => (.error .catchAll, .node [] priority none [] none)
      | (outcome, wild) => (outcome, .node (cs.take start) priority none [] wild)

/-- Grows a node for the text that follows a parameter, with the cells after its segment below it. -/
def sproutSuffix (leaf : Leaf α) : Nat → List Cell → List Cell → Outcome × Tree α
  | 0, suffix, _ => (.ok (), .node suffix 1 none [] none)
  | _ + 1, suffix, [] => (.ok (), .node suffix 1 (some leaf) [] none)
  | fuel + 1, suffix, c :: cs =>
    if c.opens then
      match findParameter (c :: cs) with
      | .ok (some (_, count)) =>
        let (outcome, wild) := sproutWild (sproutSuffix leaf fuel) leaf count (c :: cs)
        (outcome, .node suffix 1 none [] wild)
      | .ok none => (.ok (), .node suffix 1 none [] none)
      | .error e => (.error e, .node suffix 1 none [] none)
    else
      let (outcome, t) := sprout leaf 1 fuel (c :: cs)
      (outcome, .node suffix 1 none [(c.byte, t)] none)

end

/-- Grows a node for any text from cells that begin with a parameter. -/
def growWild (leaf : Leaf α) (cs : List Cell) : Outcome × Option (Wild α) :=
  match findParameter cs with
  | .ok (some (_, count)) => sproutWild (sproutSuffix leaf (cs.length + 1)) leaf count cs
  | .ok none => (.ok (), none)
  | .error e => (.error e, none)

/-- The number of cells that two lists begin with alike. -/
def commonLength : List Cell → List Cell → Nat
  | a :: as, b :: bs => if a = b then commonLength as bs + 1 else 0
  | _, _ => 0

/-- Adds a branch that one route has passed, before the branches that none has. -/
def addBranch (key : UInt8) (t : Tree α) (branches : List (UInt8 × Tree α)) : List (UInt8 × Tree α) :=
  let idle := branches.reverse.takeWhile fun (_, s) => s.priority < 1
  branches.take (branches.length - idle.length) ++ (key, t) :: idle.reverse

/-- Moves the branch after `before` forward past those that fewer routes have passed. -/
def promote (before : List (UInt8 × Tree α)) (branch : UInt8 × Tree α) (after : List (UInt8 × Tree α)) :
    List (UInt8 × Tree α) :=
  let slower := before.reverse.takeWhile fun (_, s) => s.priority < branch.2.priority
  before.take (before.length - slower.length) ++ branch :: slower.reverse ++ after

/-- Whether a cell may lead to the literal branch of its byte. -/
def Cell.leads (c : Cell) : Bool := c.escaped ∨ (c.byte ≠ openBrace ∧ c.byte ≠ closeBrace)

mutual

/-- Inserts what is left of a route at a node whose text it may begin with. -/
def Tree.insert (route : List Cell) (leaf : Leaf α) (cs : List Cell) : Tree α → Outcome × Tree α
  | .node label priority value branches wild =>
    let common := commonLength cs label
    if common < label.length then
      let lower := (((label.drop common).headD ⟨0, false⟩).byte,
        Tree.node (label.drop common) priority value branches wild)
      let upper := label.take common
      match cs.drop common with
      | [] => (.ok (), .node upper (priority + 1) (some leaf) [lower] none)
      | c :: rest =>
        if c.opens then
          let (outcome, wild) := growWild leaf (c :: rest)
          (outcome, .node upper (priority + 1) none [lower] wild)
        else
          let (outcome, t) := sprout leaf 1 (rest.length + 2) (c :: rest)
          (outcome, .node upper (priority + 1) none (addBranch c.byte t [lower]) none)
    else
      match cs.drop common with
      | [] =>
        match value with
        | some old =>
          (.error (.conflict (describe route old.names)), .node label (priority + 1) value branches wild)
        | none => (.ok (), .node label (priority + 1) (some leaf) branches wild)
      | c :: rest =>
        match if c.leads then insertBranch route leaf (c :: rest) [] branches else none with
        | some (outcome, branches) => (outcome, .node label (priority + 1) value branches wild)
        | none =>
          if c.opens then
            match insertWild route leaf (c :: rest) wild with
            | (outcome, wild) => (outcome, .node label (priority + 1) value branches wild)
          else
            let (outcome, t) := sprout leaf 1 (rest.length + 2) (c :: rest)
            (outcome, .node label (priority + 1) value (addBranch c.byte t branches) wild)

/-- Inserts below the branch that the first cell leads to, if there is one. -/
def insertBranch (route : List Cell) (leaf : Leaf α) (cs : List Cell) (before : List (UInt8 × Tree α)) :
    List (UInt8 × Tree α) → Option (Outcome × List (UInt8 × Tree α))
  | [] => none
  | (key, t) :: rest =>
    if some key = cs.head?.map (·.byte) then
      let (outcome, t) := t.insert route leaf cs
      some (outcome, promote before (key, t) rest)
    else insertBranch route leaf cs (before ++ [(key, t)]) rest

/-- Inserts cells that begin with a parameter below a node, as its node for any text. -/
def insertWild (route : List Cell) (leaf : Leaf α) (cs : List Cell) :
    Option (Wild α) → Outcome × Option (Wild α)
  | none => growWild leaf cs
  | some w =>
    let (outcome, w) := w.insert route leaf cs
    (outcome, some w)

/-- Inserts what is left of a route at a node for any text. -/
def Wild.insert (route : List Cell) (leaf : Leaf α) (cs : List Cell) : Wild α → Outcome × Wild α
  | .rest label value =>
    (.error (conflict route cs label value.names ([], value.names)), .rest label value)
  | .parameter label value suffixes =>
    if bytes (cs.take label.length) ≠ bytes label then
      (.error (conflict route cs label (namesOf value)
          (match firstSuffix suffixes with
            | some below => below
            | none => ([], namesOf value))), .parameter label value suffixes)
    else
      match cs.drop label.length with
      | [] =>
        match value with
        | some old => (.error (.conflict (describe route old.names)), .parameter label value suffixes)
        | none => (.ok (), .parameter label (some leaf) suffixes)
      | c :: rest =>
        let length := segmentLength (c :: rest)
        let suffix := (c :: rest).take length
        match insertSuffixed route leaf (c :: rest) suffix suffixes with
        | some (outcome, suffixes) => (outcome, .parameter label value suffixes)
        | none =>
          if holdsParameter suffix then (.error .segment, .parameter label value suffixes)
          else
            let (outcome, t) := sproutSuffix leaf (rest.length + 2) suffix ((c :: rest).drop length)
            (outcome, .parameter label value (insertSuffix t suffixes))

/-- Inserts below the node of a text that follows a parameter, if there is one. -/
def insertSuffixed (route : List Cell) (leaf : Leaf α) (cs suffix : List Cell) :
    List (Tree α) → Option (Outcome × List (Tree α))
  | [] => none
  | t :: rest =>
    if bytes t.label = bytes suffix then
      let (outcome, t) := t.insert route leaf cs
      some (outcome, t :: rest)
    else
      match insertSuffixed route leaf cs suffix rest with
      | some (outcome, rest) => some (outcome, t :: rest)
      | none => none

end

/-- Inserts a route that leads to `value`. Models `matchit::Router::insert`. -/
def Tree.add (t : Tree α) (path : List UInt8) (value : α) : Outcome × Tree α :=
  match normalize (cells path) with
  | .error e => (.error e, t)
  | .ok (route, names) =>
    match t with
    | .node [] priority _ [] none => sprout ⟨value, names⟩ (priority + 1) (route.length + 1) route
    | _ => t.insert route ⟨value, names⟩ route

/-- A route that a path takes: what it leads to, and what its parameters and its catch-all stand for. -/
structure Match (α : Type) where
  leaf : Leaf α
  values : List (List UInt8)
  rest : Option (List UInt8 × List UInt8) := none

def Match.cons (value : List UInt8) (m : Match α) : Match α := { m with values := value :: m.values }

/-- The name in the braces of a catch-all. -/
def catchAllName (label : List Cell) : List UInt8 := (bytes label).drop 2 |>.dropLast

/-- What a path has after a text, if it begins with it. -/
def after? (label : List UInt8) (path : List UInt8) : Option (List UInt8) :=
  if label.isPrefixOf path then some (path.drop label.length) else none

mutual

/-- Finds the route that a path takes from a node. Models `matchit::Router::at`. -/
def Tree.find (path : List UInt8) : Tree α → Option (Match α)
  | .node label _ leaf branches wild =>
    match after? (bytes label) path with
    | none => none
    | some [] => leaf.map fun l => { leaf := l, values := [] }
    | some (b :: rest) =>
      match findBranch (b :: rest) branches with
      | some m => some m
      | none => findWild (b :: rest) wild

/-- Finds the route that a path takes below the first branch of its first byte. -/
def findBranch (path : List UInt8) : List (UInt8 × Tree α) → Option (Match α)
  | [] => none
  | (key, t) :: rest => if some key = path.head? then t.find path else findBranch path rest

/-- Finds the route that a path takes below the node for any text, if there is one. -/
def findWild (path : List UInt8) : Option (Wild α) → Option (Match α)
  | none => none
  | some w => w.find path

/-- Finds the route that a path takes from a node for any text. A parameter stands for some text of its
segment, and never for none. -/
def Wild.find (path : List UInt8) : Wild α → Option (Match α)
  | .rest label leaf => some { leaf, values := [], rest := some (catchAllName label, path) }
  | .parameter _ leaf suffixes =>
    let name := path.takeWhile (· ≠ slash)
    if name.isEmpty then none
    else
      let length := if name.length < path.length then name.length + 1 else path.length
      match findSuffix path length suffixes with
      | some found => found
      | none =>
        if name.length < path.length then none else leaf.map fun l => { leaf := l, values := [path] }

/-- Finds the route that a path takes below the first text that its segment, of `length` bytes, ends with;
nothing if it ends with none of them. -/
def findSuffix (path : List UInt8) (length : Nat) : List (Tree α) → Option (Option (Match α))
  | [] => none
  | t :: rest =>
    let start := length - t.label.length
    if t.label.length < length ∧ (path.take length).drop start = bytes t.label then
      some ((t.find (path.drop start)).map (·.cons (path.take start)))
    else findSuffix path length rest

end

def Match.params (m : Match α) : List (String × String) :=
  (m.leaf.names.zip m.values ++ m.rest.toList).map fun (k, v) =>
    (String.ofList (Text.Utf8.decodeLossy k), String.ofList (Text.Utf8.decodeLossy v))

end JsonService.Route
