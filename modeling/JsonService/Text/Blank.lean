/-!
# Blank characters

The characters of the property `White_Space`, and what is left of a text without those at its ends.
-/
namespace JsonService.Text

/-- Every character with the property `White_Space`, by code point. -/
def blanks : List Nat :=
  [0x09, 0x0A, 0x0B, 0x0C, 0x0D, 0x20, 0x85, 0xA0, 0x1680,
   0x2000, 0x2001, 0x2002, 0x2003, 0x2004, 0x2005, 0x2006, 0x2007, 0x2008, 0x2009, 0x200A,
   0x2028, 0x2029, 0x202F, 0x205F, 0x3000]

/-- Whether a character leaves no mark on the page. -/
def isBlank (c : Char) : Bool := blanks.contains c.toNat

/-- A text that is empty or blank throughout. -/
def allBlank (s : String) : Bool := s.toList.all isBlank

/-- The characters left once every one at either end that satisfies `p` is gone. -/
def stripEnds (p : Char → Bool) (cs : List Char) : List Char :=
  ((cs.dropWhile p).reverse.dropWhile p).reverse

/-- A text without the blanks at its ends. -/
def trim (s : String) : String := String.ofList (stripEnds isBlank s.toList)

def trimStart (s : String) : String := String.ofList (s.toList.dropWhile isBlank)

/-- The parts of `cs` between the characters that satisfy `p`: always one more than there are of those. -/
def splitOn (p : Char → Bool) : List Char → List (List Char)
  | [] => [[]]
  | c :: cs =>
    if p c then [] :: splitOn p cs
    else match splitOn p cs with
      | [] => [[c]]
      | part :: parts => (c :: part) :: parts

theorem splitOn_ne_nil (p : Char → Bool) (cs : List Char) : splitOn p cs ≠ [] := by
  induction cs with
  | nil => simp [splitOn]
  | cons c cs ih =>
    simp only [splitOn]
    split
    · simp
    · split <;> simp

/-- Both sides of the first character that satisfies `p`, which belongs to neither. -/
def cut? (p : Char → Bool) (cs : List Char) : Option (List Char × List Char) :=
  match cs.dropWhile (fun c => !p c) with
  | [] => none
  | _ :: rest => some (cs.takeWhile (fun c => !p c), rest)

/-- The upper-case letters `A` to `Z` written small; every other character stays. -/
def lower (s : String) : String := String.ofList (s.toList.map Char.toLower)

/-- The letters `a` to `z` written large; every other character stays. -/
def upper (s : String) : String := String.ofList (s.toList.map Char.toUpper)

end JsonService.Text
