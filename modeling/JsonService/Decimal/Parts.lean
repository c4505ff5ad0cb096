/-!
# Numbers from their digits

The double that a whole number and a power of ten stand for, by one multiplication or division with a
power of ten from `10 ^ 0` to `10 ^ 308`. Both steps round, so this may be the neighbour of the nearest
double.
-/
namespace JsonService.Decimal

/-- The double nearest to `10 ^ n`, for `n` up to 308. -/
def power (n : Nat) : Float := Float.ofScientific 1 false n

/-- Division by `10 ^ n`, by `10 ^ 308` at a time. -/
def scaleDown (x : Float) (n : Nat) : Float :=
  if n ≤ 308 then x / power n
  else if x == 0 then x
  else scaleDown (x / power 308) (n - 308)
termination_by n

/-- Multiplication by `10 ^ n`; nothing if that is too large for a double. -/
def scaleUp? (x : Float) (n : Nat) : Option Float :=
  if n ≤ 308 then
    let y := x * power n
    if y.isInf then none else some y
  else if x == 0 then some x
  else none

/-- The double that `whole · 10 ^ exponent` stands for, if there is one. -/
def toDouble? (whole : UInt64) (exponent : Int) : Option Float :=
  if 0 ≤ exponent then scaleUp? whole.toFloat exponent.toNat
  else some (scaleDown whole.toFloat (-exponent).toNat)

end JsonService.Decimal
