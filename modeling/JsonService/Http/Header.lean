import JsonService.Text.Blank
import JsonService.Text.Utf8

/-!
# Header fields

Which names and values a header field may have. Names mean the same in either case and are kept small.
-/
namespace JsonService.Header

/-- Whether a character may stand in a name: a letter, a digit or one of fifteen marks. -/
def isToken (c : Char) : Bool := c.isAlphanum || "!#$%&'*+-.^_`|~".toList.contains c

/-- The greatest number of characters of a name. -/
def longestName : Nat := 65535

/-- The name as it is kept, if it is one. -/
def name? (s : String) : Option String :=
  if s.isEmpty ∨ longestName < s.length ∨ !s.toList.all isToken then none else some (Text.lower s)

/-- Whether a byte may stand in a value: no control character but the tab. -/
def isValueByte (b : UInt8) : Bool := (32 ≤ b ∧ b ≠ 127) ∨ b = 9

def isValue (s : String) : Bool := (Text.Utf8.bytes s).all isValueByte

/-- Whether a byte is visible: printable ASCII, a space or a tab. -/
def isVisible (b : UInt8) : Bool := (32 ≤ b ∧ b < 127) ∨ b = 9

/-- The text of a value that is visible throughout. -/
def visible? (value : List UInt8) : Option String :=
  if value.all isVisible then some (String.ofList (value.map fun b => Char.ofNat b.toNat)) else none

/-- Whether two names are the same but for the case of their letters `A` to `Z`. -/
def sameName (a b : String) : Bool := Text.lower a = Text.lower b

end JsonService.Header
