import JsonService.Text.Digits

/-!
# UUIDs

A UUID is thirty-two hexadecimal digits. It is written with hyphens, in small letters; it may be read in
four forms. `fresh` numbers the time-ordered UUIDs of one process. Models `uuid::Uuid`, as far as it is
read, written and drawn with `now_v7`.
-/
namespace JsonService

/-- A universally unique identifier, by its hexadecimal digits. -/
structure Uuid where
  digits : List (Fin 16)
  length_digits : digits.length = 32
  deriving DecidableEq

namespace Uuid

def digit? (c : Char) : Option (Fin 16) :=
  (Text.hexDigit? c).map (Fin.ofNat 16)

def digitChar (d : Fin 16) : Char := Nat.digitChar d.val

/-- Thirty-two digits without anything between them. -/
def ofSimple? (cs : List Char) : Option Uuid :=
  (cs.mapM digit?).bind fun ds => if h : ds.length = 32 then some ⟨ds, h⟩ else none

/-- Where the hyphens stand in a hyphenated text. -/
def hyphenPlaces : List Nat := [8, 13, 18, 23]

/-- Digits in groups of eight, four, four, four and twelve, with hyphens between the groups. -/
def ofHyphenated? (cs : List Char) : Option Uuid :=
  if cs.length = 36 ∧ hyphenPlaces.all (fun i => cs[i]? = some '-') then
    ofSimple? (cs.take 8 ++ (cs.drop 9).take 4 ++ (cs.drop 14).take 4 ++ (cs.drop 19).take 4 ++ cs.drop 24)
  else none

/-- The mark before a UUID written as a name, in any case. -/
def urn : List Char := "urn:uuid:".toList

/-- A UUID in any of its four forms: bare digits, hyphenated, hyphenated within braces, or a name. -/
def parse? (s : String) : Option Uuid :=
  let cs := s.toList
  if cs.length = 32 then ofSimple? cs
  else if cs.length = 36 then ofHyphenated? cs
  else if cs.length = 38 ∧ cs.head? = some '\x7b' ∧ cs.getLast? = some '\x7d' then
    ofHyphenated? (cs.drop 1).dropLast
  else if cs.length = 45 ∧ (cs.take 9).map Char.toLower = urn then ofHyphenated? (cs.drop 9)
  else none

/-- The hyphenated text, in small letters. -/
def render (u : Uuid) : String :=
  let cs := u.digits.map digitChar
  String.ofList (cs.take 8 ++ '-' :: (cs.drop 8).take 4 ++ '-' :: (cs.drop 12).take 4
    ++ '-' :: (cs.drop 16).take 4 ++ '-' :: cs.drop 20)

def digitsOf (width n : Nat) : List (Fin 16) :=
  (List.range width).map fun i => Fin.ofNat 16 (n / Nat.pow 16 (width - 1 - i))

/-- The `n`-th identifier of one of the series of a process: a time-ordered UUID, which has the version 7 and
the variant of the standard, with the count in its last digits. -/
def fresh (series n : Nat) : Uuid where
  digits := digitsOf 12 0x018f00000000 ++ 7 :: digitsOf 3 series ++ [8, 0, 0, 0] ++ digitsOf 12 n
  length_digits := by simp [digitsOf]

/-- Whether the version of the UUID is `v`. -/
def hasVersion (u : Uuid) (v : Fin 16) : Bool := u.digits[12]? = some v

end Uuid

end JsonService
