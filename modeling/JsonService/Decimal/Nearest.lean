import JsonService.Decimal.Shortest

/-!
# Nearest doubles

The double that lies nearest to a decimal with any exponent.
-/
namespace JsonService.Decimal

/-- The power of ten from which on every decimal is infinite. -/
def tooLarge : Int := 310

/-- The power of ten up to which every decimal is zero. -/
def tooSmall : Int := -330

/-- The double nearest to `whole · 10 ^ exponent`. -/
def nearest (whole : Nat) (exponent : Int) : Float :=
  let power := exponent + (Nat.toDigits 10 whole).length
  if whole = 0 ∨ power < tooSmall then 0
  else if tooLarge < power then 1 / 0
  else Float.ofScientific whole (exponent < 0) exponent.natAbs

end JsonService.Decimal
