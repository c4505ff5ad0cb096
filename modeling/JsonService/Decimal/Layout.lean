import JsonService.Decimal.Shortest

/-!
# Decimal layouts

How the shortest decimal of a number is written: with its point in place, or with an exponent.
-/
namespace JsonService.Decimal

/-- When a number is written with its point in place. -/
structure Layout where
  /-- The least and the greatest power of ten of a first digit that stays in place; none: always. -/
  range : Option (Int × Int)
  /-- Whether a whole number gets `.0`. -/
  keepsPoint : Bool

/-- JSON documents: doubles are written out between `10 ^ -5` and `10 ^ 16`. -/
def Layout.jsonDouble : Layout := ⟨some (-5, 15), true⟩

/-- JSON documents: singles are written out between `10 ^ -6` and `10 ^ 13`. -/
def Layout.jsonSingle : Layout := ⟨some (-6, 12), true⟩

/-- Messages: every digit is written out and a whole number has no point. -/
def Layout.message : Layout := ⟨none, false⟩

/-- Whether a first digit at this power of ten stays in place. -/
def Layout.inPlace (l : Layout) (power : Int) : Bool :=
  match l.range with
  | none => true
  | some (least, most) => least ≤ power ∧ power ≤ most

/-- The text of a decimal without its sign. -/
def render (l : Layout) (d : Decimal) : String :=
  let digits := Nat.toDigits 10 d.digits
  let power : Int := d.scale + (digits.length : Int) - 1
  let zeros := fun (n : Int) => List.replicate n.toNat '0'
  if l.inPlace power then
    if 0 ≤ d.scale then
      String.ofList (digits ++ zeros d.scale ++ if l.keepsPoint then ['.', '0'] else [])
    else if 0 ≤ power then
      let whole := (power + 1).toNat
      String.ofList (digits.take whole ++ '.' :: digits.drop whole)
    else String.ofList ('0' :: '.' :: zeros (-power - 1) ++ digits)
  else
    let fraction := if digits.length = 1 then [] else '.' :: digits.drop 1
    String.ofList (digits.take 1 ++ fraction ++ 'e' :: (if power < 0 then '-' else '+') ::
      Nat.toDigits 10 power.natAbs)

/-- The text of a number given by its bits, or `none` if it is not finite. -/
def renderFinite? (w : Width) (l : Layout) (bits : Nat) : Option String :=
  match w.read bits with
  | .finite negative b => some ((if negative then "-" else "") ++ render l (ofBinary w b))
  | _ => none

/-- The text of a number in a message, infinities and not-a-number included. -/
def renderMessage (w : Width) (bits : Nat) : String :=
  match w.read bits with
  | .finite negative b => (if negative then "-" else "") ++ render .message (ofBinary w b)
  | .infinite negative => if negative then "-inf" else "inf"
  | .nan => "NaN"

end JsonService.Decimal
