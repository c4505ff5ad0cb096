import JsonService.Text.Blank
import JsonService.Text.Utf8

/-!
# Form-encoded text

Lists of keys and values as they stand in the query of a URI: pairs divided by `&`, key and value by the
first `=`, a blank as `+`, and any byte as `%` and two hexadecimal digits. Models
`form_urlencoded::parse`.
-/
namespace JsonService.Text.Form

def hexDigit? (b : UInt8) : Option UInt8 :=
  if 0x30 ≤ b ∧ b ≤ 0x39 then some (b - 0x30)
  else if 0x41 ≤ b ∧ b ≤ 0x46 then some (b - 0x37)
  else if 0x61 ≤ b ∧ b ≤ 0x66 then some (b - 0x57)
  else none

/-- The byte that `%` and two hexadecimal digits stand for. -/
def escape? (b h l : UInt8) : Option UInt8 :=
  if b = 0x25 then
    match hexDigit? h, hexDigit? l with
    | some x, some y => some (x * 16 + y)
    | _, _ => none
  else none

/-- The byte that a byte outside an escape stands for. -/
def plain (b : UInt8) : UInt8 := if b = 0x2B then 0x20 else b

/-- The bytes that an encoded part stands for. A `%` without two digits after it stands for itself. -/
def decodeBytes : List UInt8 → List UInt8
  | b :: h :: l :: rest =>
    match escape? b h l with
    | some x => x :: decodeBytes rest
    | none => plain b :: decodeBytes (h :: l :: rest)
  | b :: rest => plain b :: decodeBytes rest
  | [] => []

/-- The text of an encoded part. -/
def decodePart (bs : List UInt8) : String := String.ofList (Utf8.decodeLossy (decodeBytes bs))

/-- The parts of a byte sequence between the bytes equal to `sep`. -/
def splitBytes (sep : UInt8) : List UInt8 → List (List UInt8)
  | [] => [[]]
  | b :: bs =>
    if b = sep then [] :: splitBytes sep bs
    else match splitBytes sep bs with
      | [] => [[b]]
      | part :: parts => (b :: part) :: parts

/-- A pair as it stands between two `&`: without `=` the value is empty. -/
def decodePair (bs : List UInt8) : String × String :=
  (decodePart (bs.takeWhile (· ≠ 0x3D)), decodePart ((bs.dropWhile (· ≠ 0x3D)).drop 1))

/-- The pairs of an encoded list. Nothing between two `&` is no pair. -/
def decode (bs : List UInt8) : List (String × String) :=
  ((splitBytes 0x26 bs).filter (!·.isEmpty)).map decodePair

/-- The first value under `key`. -/
def lookup (key : String) (pairs : List (String × String)) : Option String :=
  (pairs.find? (·.1 = key)).map (·.2)

end JsonService.Text.Form
