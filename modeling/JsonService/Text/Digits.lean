/-!
# Digits

Numbers from their decimal and hexadecimal digits, with no sign and nothing between the digits.
-/
namespace JsonService.Text

/-- The number that decimal digits spell. -/
def decimal (ds : List Char) : Nat := ds.foldl (fun n d => n * 10 + (d.toNat - 48)) 0

/-- The number that some characters spell, if they are decimal digits and at least one. -/
def decimal? (cs : List Char) : Option Nat :=
  if cs.isEmpty ∨ !cs.all Char.isDigit then none else some (decimal cs)

/-- The number that decimal digits spell, if it is less than a limit. -/
def decimalBelow? (limit : Nat) (cs : List Char) : Option Nat := (decimal? cs).filter (· < limit)

/-- The number that some characters spell, which may have a plus sign, if it is less than a limit. -/
def unsigned? (limit : Nat) : List Char → Option Nat
  | '+' :: ds => decimalBelow? limit ds
  | ds => decimalBelow? limit ds

def hexDigit? (c : Char) : Option Nat :=
  if '0' ≤ c ∧ c ≤ '9' then some (c.toNat - 48)
  else if 'a' ≤ c ∧ c ≤ 'f' then some (c.toNat - 87)
  else if 'A' ≤ c ∧ c ≤ 'F' then some (c.toNat - 55)
  else none

/-- The number that some characters spell, if they are hexadecimal digits. -/
def hexadecimal? (cs : List Char) : Option Nat :=
  cs.foldlM (fun n c => (hexDigit? c).map (n * 16 + ·)) 0

end JsonService.Text
