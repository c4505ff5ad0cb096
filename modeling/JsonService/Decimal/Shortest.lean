/-!
# Shortest decimals

The shortest decimal that reads back as a given binary floating-point number. A number is taken apart
into a mantissa and a power of two; the reals that round to it form an interval, and the decimal is the
nearest point of the coarsest decimal grid that has a point there. All arithmetic is exact.
-/
namespace JsonService

/-- The number `digits · 10 ^ scale`. -/
structure Decimal where
  digits : Nat
  scale : Int
  deriving DecidableEq, Repr

namespace Decimal

/-- How a binary format lays a number out in bits. -/
structure Width where
  fraction : Nat
  /-- Bits of the exponent. -/
  exponent : Nat
  /-- Digits that always suffice to tell two numbers apart. -/
  digits : Nat

def Width.double : Width := ⟨52, 11, 17⟩

def Width.single : Width := ⟨23, 8, 9⟩

/-- The magnitude `mantissa · 2 ^ exponent`. Below a power of two the next smaller number is half as far
away as the next larger one. -/
structure Binary where
  mantissa : Nat
  exponent : Int
  narrowBelow : Bool

/-- What the bits of a floating-point number say. -/
inductive Reading where
  | finite (negative : Bool) (magnitude : Binary)
  | infinite (negative : Bool)
  | nan

/-- Takes the bits of a number apart. -/
def Width.read (w : Width) (bits : Nat) : Reading :=
  let fraction := bits % Nat.pow 2 w.fraction
  let exponent := bits / Nat.pow 2 w.fraction % Nat.pow 2 w.exponent
  let negative := bits / Nat.pow 2 (w.fraction + w.exponent) % 2 = 1
  let bias : Int := Nat.pow 2 (w.exponent - 1) - 1 + w.fraction
  if exponent = Nat.pow 2 w.exponent - 1 then
    if fraction = 0 then .infinite negative else .nan
  else if exponent = 0 then .finite negative ⟨fraction, 1 - bias, false⟩
  else .finite negative ⟨Nat.pow 2 w.fraction + fraction, exponent - bias, fraction = 0 ∧ 1 < exponent⟩

/-- The interval around a magnitude, as numerators over one denominator. -/
structure Interval where
  low : Nat
  middle : Nat
  high : Nat
  denominator : Nat
  closed : Bool

/-- The reals that round to a magnitude: half a unit to either side, with the ends if the mantissa is
even. -/
def Binary.interval (b : Binary) : Interval :=
  let q := b.exponent - 2
  let up := Nat.pow 2 q.toNat
  { low := (4 * b.mantissa - if b.narrowBelow then 1 else 2) * up
    middle := 4 * b.mantissa * up
    high := (4 * b.mantissa + 2) * up
    denominator := Nat.pow 2 (-q).toNat
    closed := b.mantissa % 2 = 0 }

/-- Whether `digits · 10 ^ scale` lies in the interval. -/
def Interval.contains (i : Interval) (d : Decimal) : Bool :=
  let x := d.digits * i.denominator * Nat.pow 10 d.scale.toNat
  let up := Nat.pow 10 (-d.scale).toNat
  if i.closed then i.low * up ≤ x ∧ x ≤ i.high * up else i.low * up < x ∧ x < i.high * up

/-- The nearest multiple of `10 ^ scale` in the interval, if it has one; of two equally near ones the even
one. -/
def Interval.onGrid (i : Interval) (scale : Int) : Option Decimal :=
  let up := Nat.pow 10 (-scale).toNat
  let unit := i.denominator * Nat.pow 10 scale.toNat
  let below := i.middle * up / unit
  let low : Decimal := ⟨below, scale⟩
  let high : Decimal := ⟨below + 1, scale⟩
  let twice := 2 * i.middle * up
  let halfway := (2 * below + 1) * unit
  let first := if twice < halfway ∨ twice = halfway ∧ below % 2 = 0 then low else high
  let second := if first = low then high else low
  if i.contains first then some first else if i.contains second then some second else none

def length (n : Nat) : Nat := (Nat.toDigits 10 n).length

/-- The power of ten just above the middle of the interval. Scaled by `10 ^ 400` every magnitude that a
format holds has an integer part. -/
def Interval.order (i : Interval) : Int := (length (i.middle * Nat.pow 10 400 / i.denominator) : Int) - 400

/-- The decimal without the zeros at its end, looking at most `fuel` digits deep. -/
def stripZeros : Nat → Decimal → Decimal
  | 0, d => d
  | fuel + 1, d => if d.digits % 10 = 0 then stripZeros fuel ⟨d.digits / 10, d.scale + 1⟩ else d

/-- The shortest decimal that lies in the interval of a magnitude, nearest to it among those. -/
def ofBinary (w : Width) (b : Binary) : Decimal :=
  if b.mantissa = 0 then ⟨0, 0⟩
  else
    let i := b.interval
    let order := i.order
    match (List.range w.digits).findSome? fun n => i.onGrid (order - (n + 1 : Nat)) with
    | some d => stripZeros w.digits d
    | none => ⟨b.mantissa, 0⟩

end Decimal

end JsonService
