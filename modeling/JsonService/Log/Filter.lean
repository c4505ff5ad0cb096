import JsonService.Log.Event
import JsonService.Text.Alphanumeric
import JsonService.Text.Blank
import JsonService.Text.Digits
import JsonService.Text.Pattern.Reader

/-!
# Log filters

A filter is a text of directives between commas, such as `info,store=debug,[request]=trace`. A directive
lets events up to a level through that come from a target; of several directives for an event the most
specific one decides. A directive that names a span, or a field of one, lets events through that happen
inside such a span, whatever else the filter says. Models `EnvFilter` of `tracing_subscriber`.
-/
namespace JsonService.Log

abbrev Threshold := Nat

def Threshold.all : Threshold := 5

def Threshold.names : List (String × Threshold) :=
  [("error", 1), ("warn", 2), ("info", 3), ("debug", 4), ("trace", 5), ("off", 0)]

/-- Reads a threshold: its rank, or its name in any case. -/
def Threshold.parse? (s : List Char) : Option Threshold :=
  match (Text.unsigned? UInt64.size s).filter (· ≤ 5) with
  | some n => some n
  | none => (Threshold.names.find? (·.1 = Text.lower (String.ofList s))).map (·.2)

/-- What the value of a field has to be. -/
inductive Expected where
  | bool (b : Bool)
  | number (n : Nat)
  /-- A number that no field has: one with a minus sign, a fraction or an exponent. -/
  | otherNumber (spelling : List Char)
  /-- A text that looks like a pattern. -/
  | pattern (spelling : List Char) (p : Text.Pattern)
  deriving DecidableEq, Repr

namespace Expected

/-- Whether some characters are digits around at most one point, and at least one digit. -/
def isMantissa (cs : List Char) : Bool :=
  match Text.splitOn (· = '.') cs with
  | [whole] => (Text.decimal? whole).isSome
  | [whole, fraction] => (Text.decimal? (whole ++ fraction)).isSome
  | _ => false

def unsigned : List Char → List Char
  | '+' :: cs | '-' :: cs => cs
  | cs => cs

/-- Whether some characters spell a number of any kind: digits, a point and an exponent, or a word for what
is no finite number. -/
def isNumber (cs : List Char) : Bool :=
  let cs := (unsigned cs).map Char.toLower
  ["inf", "infinity", "nan"].contains (String.ofList cs) ||
    match Text.splitOn (· = 'e') cs with
    | [mantissa] => isMantissa mantissa
    | [mantissa, exponent] => isMantissa mantissa && (Text.decimal? (unsigned exponent)).isSome
    | _ => false

/-- Reads what a value has to be. What spells a truth value or a number stands for no text. -/
def parse? (cs : List Char) : Option Expected :=
  if String.ofList cs = "true" then some (.bool true)
  else if String.ofList cs = "false" then some (.bool false)
  else match Text.unsigned? UInt64.size cs with
    | some n => some (.number n)
    | none =>
      if isNumber cs then some (.otherNumber cs)
      else (Text.Pattern.parse? (String.ofList cs)).map (.pattern cs)

def fits : Expected → Value → Bool
  | .bool b, .bool c => b = c
  | .number n, .number m => n = m
  | .pattern _ p, .text s | .pattern _ p, .words s => p.covers s
  | _, _ => false

end Expected

/-- A field that a directive asks for, and what its value has to be. -/
structure FieldPattern where
  name : String
  value : Option Expected := none
  deriving DecidableEq, Repr

structure Directive where
  /-- How the targets begin for which it counts; none: for all. -/
  target : Option String := none
  /-- The name of the spans for which it counts. -/
  span : Option String := none
  field : Option FieldPattern := none
  threshold : Threshold := .all
  deriving DecidableEq, Repr

namespace Directive

/-! ## Reading

The marks of a directive are looked for in its text without the blanks at the ends; what stands between two
places is cut out of the whole text at the same places. So blanks before a directive shift what it says. -/

def cut (whole : List Char) (start stop : Nat) : List Char := (whole.drop start).take (stop - start)

/-- The place of the first character from `start` on that is one of some marks, and the mark. -/
def findMark? (marks : List Char) (start : Nat) (cs : List Char) : Option (Nat × Char) :=
  let before := (cs.drop start).takeWhile fun c => !marks.contains c
  (cs[start + before.length]?).map (start + before.length, ·)

/-- The threshold after an equals sign: everything, if nothing follows. -/
def thresholdFrom? (whole : List Char) (start : Nat) : Option Threshold :=
  match whole.drop start with
  | [] => some .all
  | s => Threshold.parse? s

def afterSpan? (d : Directive) (whole cs : List Char) (start : Nat) : Option Directive :=
  match cs[start]? with
  | none => some d
  | some '=' => (thresholdFrom? whole (start + 1)).map fun t => { d with threshold := t }
  | some _ => none

/-- A field: its name and, after an equals sign, its value. -/
def fieldOf? (s : List Char) : Option FieldPattern :=
  if s.isEmpty then none
  else match Text.splitOn (· = '=') s with
    | name :: value :: _ => (Expected.parse? value).map fun e => ⟨String.ofList name, some e⟩
    | _ => some ⟨String.ofList s, none⟩

/-- The rest of a directive after an opening bracket. -/
def spanFrom? (d : Directive) (whole cs : List Char) (start : Nat) : Option Directive := do
  let (stop, mark) ← findMark? [']', '\x7b'] start cs
  let name := String.ofList (cut whole start stop)
  if mark = ']' then afterSpan? { d with span := some name } whole cs (stop + 1)
  else
    let (last, _) ← findMark? ['\x7d'] (stop + 1) cs
    let field ← fieldOf? (cut whole (stop + 1) last)
    if cs[last + 1]? = some ']' then
      afterSpan? { d with span := if name.isEmpty then none else some name, field := some field }
        whole cs (last + 2)
    else none

/-- Whether a directive may begin with a character: a letter, a digit, or one of three marks. -/
def isStart (c : Char) : Bool := Text.isAlphanumeric c || ['-', ':', '_'].contains c

/-- Reads a directive. A word alone is a level, or a target of which everything is let through. -/
def parse? (whole : List Char) : Option Directive :=
  let cs := Text.stripEnds Text.isBlank whole
  match cs with
  | [] => none
  | '[' :: _ => spanFrom? {} whole cs 1
  | c :: _ =>
    if !isStart c then none
    else match findMark? ['=', '['] 1 cs with
      | none => match Threshold.parse? whole with
        | some t => some { threshold := t }
        | none => some { target := some (String.ofList whole) }
      | some (stop, mark) =>
        let d : Directive := { target := some (String.ofList (cut whole 0 stop)) }
        if mark = '[' then spanFrom? d whole cs (stop + 1)
        else (thresholdFrom? whole (stop + 1)).map fun t => { d with threshold := t }

/-! ## Tables of directives -/

/-- Whether a directive counts for the events of some spans. -/
def isDynamic (d : Directive) : Bool := d.span.isSome || d.field.isSome

/-- Whether a directive counts for events by their own fields, in any span or none. -/
def isStatic (d : Directive) : Bool := d.span.isNone && (d.field.bind (·.value)).isNone

/-- Whether two directives ask for the same. -/
def sameCase (a b : Directive) : Bool := a.target = b.target && a.span = b.span && a.field = b.field

def targetSize (d : Directive) : Nat := (d.target.map (·.utf8ByteSize + 1)).getD 0

/-- Whether one directive is more specific than another: by the length of its target, then by asking for a
field, then by order of words. -/
def outranks (a b : Directive) : Bool :=
  let fieldName := fun (d : Directive) => (d.field.map (·.name)).getD ""
  let ranks := (compare a.targetSize b.targetSize).then <|
    (compare a.field.isSome.toNat b.field.isSome.toNat).then <|
    (compare (a.target.getD "") (b.target.getD "")).then (compare (fieldName a) (fieldName b))
  ranks = .gt

def insert (d : Directive) : List Directive → List Directive
  | [] => [d]
  | e :: rest =>
    if d.sameCase e then d :: rest
    else if d.outranks e then d :: e :: rest
    else e :: insert d rest

def table (ds : List Directive) : List Directive := ds.foldl (fun t d => insert d t) []

/-! ## What directives count for -/

/-- Whether a directive counts for a target. -/
def coversTarget (d : Directive) (target : String) : Bool :=
  match d.target with
  | some start => start.toList.isPrefixOf target.toList
  | none => true

/-- Whether a directive counts for an event by itself. -/
def coversEvent (d : Directive) (e : Event) : Bool :=
  d.coversTarget e.target && match d.field with
    | some f => f.name = "message" || e.fields.any (·.1 = f.name)
    | none => true

/-- Whether a directive counts for what happens in a span, if its field has the right value. -/
def coversSpan (d : Directive) (s : Span) : Bool :=
  d.coversTarget s.target && (d.span.isNone || d.span = some s.name) && match d.field with
    | some f => s.fields.any (·.1 = f.name)
    | none => true

/-- Whether the field that a directive asks for has the right value. -/
def fieldFits (d : Directive) (s : Span) : Bool :=
  match d.field with
  | some ⟨name, some expected⟩ => s.fields.any fun (k, v) => k = name && expected.fits v
  | _ => true

end Directive

/-- Directives that count for events by themselves, and directives that count for what happens in spans. -/
structure Filter where
  statics : List Directive := []
  dynamics : List Directive := []

namespace Filter

def ofDirectives (ds : List Directive) : Filter where
  statics := Directive.table (ds.filter fun d => !d.isDynamic) |> fun t =>
    (Directive.table (ds.filter Directive.isDynamic)).foldl
      (fun t d => if d.isStatic then Directive.insert d t else t) t
  dynamics := Directive.table (ds.filter Directive.isDynamic)

/-- Reads a filter: directives between commas. Empty parts do not count. -/
def parse? (s : String) : Option Filter := do
  let parts := (Text.splitOn (· = ',') s.toList).filter (!·.isEmpty)
  return ofDirectives (← parts.mapM Directive.parse?)

/-- What is let through of a target if nothing else is said. -/
def fallback : Filter := ofDirectives [{ threshold := Level.info.rank }]

/-- The threshold of the first of some directives that counts. -/
def decide (covers : Directive → Bool) (ds : List Directive) : Threshold :=
  ((ds.find? covers).map (·.threshold)).getD 0

/-- Up to which level events are let through because they happen in a span; none if no directive counts for
the span. -/
def spanThreshold? (f : Filter) (s : Span) : Option Threshold :=
  let ds := f.dynamics.filter (·.coversSpan s)
  if ds.isEmpty then none
  else some (((ds.filter (·.fieldFits s)).map (·.threshold)).foldl max 0)

def ceiling (f : Filter) : Threshold :=
  if f.dynamics.any fun d => (d.field.bind (·.value)).isSome then .all
  else ((f.statics ++ f.dynamics).map (·.threshold)).foldl max 0

/-- Whether a span is let through, so that its events show it. -/
def allowsSpan (f : Filter) (s : Span) : Bool :=
  s.level.rank ≤ f.ceiling &&
    ((f.spanThreshold? s).isSome || s.level.rank ≤ decide (·.coversTarget s.target) f.statics)

/-- An event without its span, if that is not let through. -/
def withSpan (f : Filter) (e : Event) : Event := { e with span := e.span.filter f.allowsSpan }

def allows (f : Filter) (e : Event) : Bool :=
  let inSpan := match (f.withSpan e).span with
    | some s => e.level.rank ≤ (f.spanThreshold? s).getD 0
    | none => false
  inSpan || e.level.rank ≤ decide (·.coversEvent e) f.statics

def apply (f : Filter) (es : List Event) : List Event := (es.filter f.allows).map f.withSpan

end Filter

end JsonService.Log
