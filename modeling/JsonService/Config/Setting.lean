import JsonService.Decimal.Layout
import JsonService.Decimal.Nearest
import JsonService.Entries
import JsonService.Text.Blank
import JsonService.Text.Digits
import JsonService.Text.Quoted

/-!
# Settings

Values of settings as they are written in the environment: booleans, numbers, texts with or without quotes,
lists between brackets and tables between braces. A text that is none of these stands for itself. Models
the values of `figment`.
-/
namespace JsonService.Config

inductive Setting where
  | bool (b : Bool)
  | unsigned (n : Nat)
  | signed (n : Int)
  | float (x : Float)
  /-- One character between single quotes. -/
  | char (c : Char)
  | text (s : String)
  | list (items : List Setting)
  /-- Entries with their names ascending. -/
  | table (entries : List (String × Setting))

namespace Setting

/-! ## Tables -/

mutual

/-- What a setting becomes when another is laid over it: tables are merged, everything else is replaced. -/
def overlay (base : Setting) : Setting → Setting
  | .table entries => match base with
    | .table below => .table (overlayEntries below entries)
    | _ => .table entries
  | v => v

/-- What the entries of a table become when those of another are laid over them. -/
def overlayEntries (below : Entries Setting) : List (String × Setting) → Entries Setting
  | [] => below
  | (name, v) :: rest =>
    let value := match Entries.get? name below with
      | some base => overlay base v
      | none => v
    overlayEntries (Entries.insert name value below) rest

end

def entries : Setting → Entries Setting
  | .table es => es
  | _ => []

def nested (value : Setting) : List String → Setting
  | [] => value
  | name :: path => .table [(name, nested value path)]

/-! ## What messages say -/

/-- What a message calls a value. -/
def describe : Setting → String
  | .bool b => s!"bool {b}"
  | .unsigned n => s!"unsigned int `{n}`"
  | .signed n => s!"signed int `{n}`"
  | .float x => s!"float `{Decimal.renderMessage .double x.toBits.toNat}`"
  | .char c => s!"string {Text.quoted (String.singleton c)}"
  | .text s => s!"string {Text.quoted s}"
  | .list _ => "sequence"
  | .table _ => "map"

def text? : Setting → Option String
  | .char c => some (String.singleton c)
  | .text s => some s
  | _ => none

/-! ## Bare words -/

/-- A sign and what follows it; true for a minus. -/
def takeSign : List Char → Bool × List Char
  | '+' :: cs => (false, cs)
  | '-' :: cs => (true, cs)
  | cs => (false, cs)

/-- A whole number with a sign. -/
def signed? (cs : List Char) : Option Int :=
  match takeSign cs with
  | (true, ds) => (Text.decimalBelow? (UInt64.size / 2 + 1) ds).map fun n => -(n : Int)
  | (false, ds) => (Text.decimalBelow? (UInt64.size / 2) ds).map fun n => (n : Int)

def exponent? : List Char → Option Int
  | [] => some 0
  | c :: cs =>
    if c = 'e' ∨ c = 'E' then
      match takeSign cs with
      | (below, ds) => (Text.decimal? ds).map fun n => if below then -(n : Int) else n
    else none

/-- A number with a point, before or after which a digit stands. -/
def float? (cs : List Char) : Option Float := do
  let (negative, cs) := takeSign cs
  let whole := cs.takeWhile Char.isDigit
  match cs.drop whole.length with
  | '.' :: rest =>
    let fraction := rest.takeWhile Char.isDigit
    if whole.isEmpty ∧ fraction.isEmpty then none
    else
      let exponent ← exponent? (rest.drop fraction.length)
      let x := Decimal.nearest (Text.decimal (whole ++ fraction)) (exponent - fraction.length)
      return if negative then -x else x
  | _ => none

/-- What a bare word stands for. -/
def ofWord (cs : List Char) : Setting :=
  match float? cs with
  | some x => .float x
  | none => match Text.unsigned? UInt64.size cs with
    | some n => .unsigned n
    | none => match signed? cs with
      | some n => .signed n
      | none => .text (String.ofList cs)

/-! ## Quoted texts -/

def unescape? (c : Char) : Option Char :=
  if c = '"' ∨ c = '\\' then some c
  else if c = 'b' then some '\x08'
  else if c = 'f' then some '\x0c'
  else if c = 'n' then some '\n'
  else if c = 'r' then some '\r'
  else if c = 't' then some '\t'
  else none

def escapeLength? (c : Char) : Option Nat := if c = 'u' then some 4 else if c = 'U' then some 8 else none

def charOfCode? (n : Nat) : Option Char := if n.isValidChar then some (Char.ofNat n) else none

/-- The rest of a text after its opening quote, and what follows the closing one; `skip` characters belong
to an escape that was read before them. -/
def quotedRest : Nat → List Char → Option (List Char × List Char)
  | _, [] => none
  | skip + 1, _ :: cs => quotedRest skip cs
  | 0, '"' :: cs => some ([], cs)
  | 0, '\\' :: c :: cs =>
    match escapeLength? c with
    | some n => do
      let digits := cs.take n
      let x ← if digits.length = n then Text.hexadecimal? digits >>= charOfCode? else none
      let (rest, after) ← quotedRest n cs
      return (x :: rest, after)
    | none => do
      let x ← unescape? c
      let (rest, after) ← quotedRest 0 cs
      return (x :: rest, after)
  | 0, c :: cs =>
    if c = '\t' ∨ (' ' ≤ c ∧ c ≠ '\x7f') then do
      let (rest, after) ← quotedRest 0 cs
      return (c :: rest, after)
    else none

/-! ## Values -/

def isSpace (c : Char) : Bool := c = ' ' ∨ c = '\t' ∨ c = '\n' ∨ c = '\x0c' ∨ c = '\r'

def inWord (c : Char) : Bool := c ≠ ',' ∧ c ≠ '\x7b' ∧ c ≠ '\x7d' ∧ c ≠ '[' ∧ c ≠ ']'

def inName (c : Char) : Bool := c.isAlphanum || c = '_' || c = '-'

def name? : List Char → Option (String × List Char)
  | '"' :: cs => (quotedRest 0 cs).map fun (s, rest) => (String.ofList s, rest)
  | cs =>
    let s := cs.takeWhile inName
    if s.isEmpty then none else some (String.ofList s, cs.drop s.length)

/-- A word of letters. -/
def keyword? (word : String) (cs : List Char) : Option (List Char) :=
  if word.toList.isPrefixOf cs then some (cs.drop word.length) else none

/-- Reads something from the start of a text and leaves the rest. -/
abbrev Reader (α : Type) := List Char → Option (α × List Char)

/-- The items of a list and its end, at most `fuel` of them. A comma may follow the last item. -/
def items? (value : Reader Setting) : Nat → Reader (List Setting)
  | 0, _ => none
  | _, ']' :: rest => some ([], rest)
  | fuel + 1, cs => do
    let (v, rest) ← value cs
    match rest with
    | ',' :: rest =>
      let (vs, rest) ← items? value fuel rest
      return (v :: vs, rest)
    | ']' :: rest => return ([v], rest)
    | _ => none

/-- The entries of a table and its end, at most `fuel` of them. A comma may follow the last entry; of two
entries of one name the last counts. -/
def entries? (value : Reader Setting) (es : Entries Setting) : Nat → Reader (Entries Setting)
  | 0, _ => none
  | _, '\x7d' :: rest => some (es, rest)
  | fuel + 1, cs => do
    let (name, rest) ← name? (cs.dropWhile isSpace)
    match rest.dropWhile isSpace with
    | '=' :: rest =>
      let (v, rest) ← value rest
      let es := Entries.insert name v es
      match rest with
      | ',' :: rest => entries? value es fuel rest
      | '\x7d' :: rest => return (es, rest)
      | _ => none
    | _ => none

def bareValue? (inner : Reader Setting) : Reader Setting := fun cs =>
  match keyword? "true" cs, keyword? "false" cs, cs with
  | some rest, _, _ => some (.bool true, rest)
  | none, some rest, _ => some (.bool false, rest)
  | none, none, '\x7b' :: rest => (entries? inner [] cs.length rest).map fun (es, rest) => (.table es, rest)
  | none, none, '[' :: rest => (items? inner cs.length rest).map fun (vs, rest) => (.list vs, rest)
  | none, none, '"' :: rest => (quotedRest 0 rest).map fun (s, rest) => (.text (String.ofList s), rest)
  | none, none, '\'' :: c :: '\'' :: rest => some (.char c, rest)
  | none, none, '\'' :: _ => none
  | none, none, cs =>
    some (ofWord (Text.stripEnds Text.isBlank (cs.takeWhile inWord)), cs.dropWhile inWord)

/-- A value with space around it, which holds values to a depth less than `depth`. -/
def value? : Nat → Reader Setting
  | 0, _ => none
  | depth + 1, cs =>
    (bareValue? (value? depth) (cs.dropWhile isSpace)).map fun (v, rest) => (v, rest.dropWhile isSpace)

/-- The value of a text. Every level of depth takes a character. -/
def parse (s : String) : Setting :=
  match value? (s.length + 1) s.toList with
  | some (v, []) => v
  | _ => .text s

end Setting

end JsonService.Config
