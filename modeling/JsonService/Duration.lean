import JsonService.Text.Blank
import JsonService.Text.Digits

/-!
# Durations

A length of time and its text for people: amounts with their units, from years down to nanoseconds. A
month has 30.44 days and a year 365.25. Models `humantime`.
-/
namespace JsonService

structure Duration where
  seconds : UInt64 := 0
  /-- The nanoseconds beyond the last full second. -/
  nanos : Fin 1000000000 := 0
  deriving DecidableEq, Repr

namespace Duration

def zero : Duration := {}

def ofSeconds (n : UInt64) : Duration := { zero with seconds := n }

/-! ## Writing -/

def month : Nat := 2630016

def year : Nat := 31557600

/-- An amount with its unit; nothing for zero. -/
def part (unit : String) (n : Nat) : Option String := if n = 0 then none else some s!"{n}{unit}"

def partOfMany (unit : String) (n : Nat) : Option String := part (if 1 < n then unit ++ "s" else unit) n

/-- The amounts of a duration with their units, the longest first. -/
def parts (d : Duration) : List String :=
  let seconds := d.seconds.toNat
  let days := seconds % year % month
  let nanos := d.nanos.val
  [partOfMany "year" (seconds / year), partOfMany "month" (seconds % year / month),
   partOfMany "day" (days / 86400), part "h" (days % 86400 / 3600), part "m" (days % 3600 / 60),
   part "s" (days % 60), part "ms" (nanos / 1000000), part "us" (nanos / 1000 % 1000),
   part "ns" (nanos % 1000)].filterMap id

def render (d : Duration) : String := if d = zero then "0s" else String.intercalate " " d.parts

/-! ## Reading -/

/-- How long a unit is: so many nanoseconds, or so many seconds. -/
inductive Scale where
  | nanos (n : Nat)
  | seconds (n : Nat)

def units : List (List String × Scale) :=
  [(["nanos", "nsec", "ns"], .nanos 1), (["usec", "us", "µs"], .nanos 1000),
   (["millis", "msec", "ms"], .nanos 1000000), (["seconds", "second", "secs", "sec", "s"], .seconds 1),
   (["minutes", "minute", "min", "mins", "m"], .seconds 60),
   (["hours", "hour", "hrs", "hr", "h"], .seconds 3600), (["days", "day", "d"], .seconds 86400),
   (["weeks", "week", "wks", "wk", "w"], .seconds 604800), (["months", "month", "M"], .seconds month),
   (["years", "year", "yrs", "yr", "y"], .seconds year)]

def scale? (name : List Char) : Option Scale := (units.find? (·.1.contains (String.ofList name))).map (·.2)

/-- A number that fits sixty-four bits. -/
def fitting? (n : Nat) : Option Nat := if n < UInt64.size then some n else none

def add? (d : Duration) (seconds nanos : Nat) : Option Duration := do
  let nanos ← fitting? (d.nanos.val + nanos)
  let seconds ← fitting? (d.seconds.toNat + seconds + nanos / 1000000000)
  return ⟨UInt64.ofNat seconds, Fin.ofNat _ nanos⟩

/-- Adds an amount of a unit. -/
def addWhole? (d : Duration) (n : Nat) : Scale → Option Duration
  | .nanos factor => do d.add? 0 (← fitting? (n * factor))
  | .seconds factor => do d.add? (← fitting? (n * factor)) 0

/-- What `n` of `10 ^ places` parts of something of this size come to, if that is a whole number. -/
def share? (n places size : Nat) : Option Nat := do
  let total ← fitting? (n * size)
  if total % Nat.pow 10 places = 0 then some (total / Nat.pow 10 places) else none

/-- Adds `n` of `10 ^ places` parts of a unit. A nanosecond has no parts, those of a minute or less have to
come to full nanoseconds, and those of an hour or more to full seconds. -/
def addFraction? (d : Duration) (n places : Nat) : Scale → Option Duration
  | .nanos factor => do if factor = 1 then none else d.add? 0 (← share? n places factor)
  | .seconds factor => do
    if factor ≤ 60 then d.add? 0 (← share? n places (factor * 1000000000))
    else d.add? (← share? n places factor) 0

def takeDigits (cs : List Char) : List Char × List Char :=
  let inNumber := fun (c : Char) => c.isDigit || Text.isBlank c
  ((cs.takeWhile inNumber).filter Char.isDigit, cs.dropWhile inNumber)

/-- The digits after a point, if there is one, and what follows them. -/
def takeFraction? : List Char → Option (Option (List Char) × List Char)
  | '.' :: rest =>
    let (ds, rest) := takeDigits rest
    if ds.isEmpty ∨ 19 < ds.length then none else some (some ds, rest)
  | cs => some (none, cs)

def inUnit (c : Char) : Bool := c.isAlpha || c = 'µ'

/-- One amount with its unit, and what follows it. -/
def addAmount? (d : Duration) (cs : List Char) : Option (Duration × List Char) := do
  let (whole, cs) := takeDigits cs
  let n ← fitting? (← Text.decimal? whole)
  let (fraction, cs) ← takeFraction? cs
  let scale ← scale? (cs.takeWhile inUnit)
  let d ← d.addWhole? n scale
  let d ← match fraction with
    | some ds => d.addFraction? (Text.decimal ds) ds.length scale
    | none => some d
  return (d, cs.dropWhile inUnit)

/-- Adds amounts up to the end, at most `fuel` of them. -/
def addAmounts? (d : Duration) : Nat → List Char → Option Duration
  | 0, _ => none
  | fuel + 1, cs => do
    let (d, cs) ← d.addAmount? cs
    let cs := cs.dropWhile Text.isBlank
    if cs.isEmpty then some d else d.addAmounts? fuel cs

/-- Reads a duration: amounts with their units, at least one, or a bare zero. Every amount takes a
character. -/
def parse? (s : String) : Option Duration :=
  if s = "0" then some zero else addAmounts? zero s.length (s.toList.dropWhile Text.isBlank)

end Duration

end JsonService
