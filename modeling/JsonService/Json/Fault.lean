import JsonService.Text.Digits

/-!
# Faults of JSON texts

What can be wrong with a text, where, and how that is said. A place is a number of bytes from the start of
the text; lines and columns count from it.
-/
namespace JsonService.Json

/-- What is wrong with a text. -/
inductive Fault where
  | endInList | endInObject | endInString | endInValue
  | expectedColon | expectedCommaOrBracket | expectedCommaOrBrace
  | expectedWord | expectedValue
  | invalidEscape | invalidNumber | numberOutOfRange | invalidCharacter | controlCharacter
  | keyNotText | loneSurrogate | endOfEscape
  | trailingComma | trailingCharacters | nestedTooDeep
  /-- The text has the right syntax and the wrong content. -/
  | content (message : String)
  deriving DecidableEq, Repr

def Fault.description : Fault → String
  | .endInList => "EOF while parsing a list"
  | .endInObject => "EOF while parsing an object"
  | .endInString => "EOF while parsing a string"
  | .endInValue => "EOF while parsing a value"
  | .expectedColon => "expected `:`"
  | .expectedCommaOrBracket => "expected `,` or `]`"
  | .expectedCommaOrBrace => "expected `,` or `\x7d`"
  | .expectedWord => "expected ident"
  | .expectedValue => "expected value"
  | .invalidEscape => "invalid escape"
  | .invalidNumber => "invalid number"
  | .numberOutOfRange => "number out of range"
  | .invalidCharacter => "invalid unicode code point"
  | .controlCharacter => "control character (\\u0000-\\u001F) found while parsing a string"
  | .keyNotText => "key must be a string"
  | .loneSurrogate => "lone leading surrogate in hex escape"
  | .endOfEscape => "unexpected end of hex escape"
  | .trailingComma => "trailing comma"
  | .trailingCharacters => "trailing characters"
  | .nestedTooDeep => "recursion limit exceeded"
  | .content message => message

structure Located where
  fault : Fault
  place : Nat
  deriving DecidableEq, Repr

/-- The line of a place, from one, and its distance from the start of the line. -/
def position (place : Nat) (bs : List UInt8) : Nat × Nat :=
  let before := bs.take place
  (1 + before.count 10, (before.reverse.takeWhile (· ≠ 10)).length)

/-- A message about a fault, with its line and column unless the line is zero. -/
def describe (message : String) (line column : Nat) : String :=
  if line = 0 then message else s!"{message} at line {line} column {column}"

/-- The message about a fault of the text `bs`. A place past the end counts as the end. -/
def Located.message (e : Located) (bs : List UInt8) : String :=
  let (line, column) := position e.place bs
  describe e.fault.description line column

/-- The decimal number that `cs` spells, below `2 ^ 64`. -/
def placeNumber? (cs : List Char) : Option Nat :=
  Text.decimalBelow? UInt64.size cs

/-- Takes `mark` off the start of `cs`. -/
def afterMark? (mark cs : List Char) : Option (List Char) :=
  if mark.isPrefixOf cs then some (cs.drop mark.length) else none

/-- The last place in `cs` where `mark` begins. -/
def lastMark? (mark cs : List Char) : Option Nat :=
  (List.range (cs.length + 1)).reverse.find? fun i => mark.isPrefixOf (cs.drop i)

/-- Reads the place that a message names at its end, with what stands before it. -/
def splitPlace? (cs : List Char) : Option (List Char × Nat × Nat) := do
  let start ← lastMark? " at line ".toList cs
  let rest := cs.drop (start + 9)
  let line := rest.takeWhile Char.isDigit
  let rest ← afterMark? " column ".toList (rest.drop line.length)
  if rest.all Char.isDigit then
    let line ← placeNumber? line
    let column ← placeNumber? rest
    return (cs.take start, line, column)
  else none

/-- How a message of someone else is repeated: a place at its end is read and written anew. -/
def repeated (message : String) : String :=
  match splitPlace? message.toList with
  | some (before, line, column) => describe (String.ofList before) line column
  | none => message

end JsonService.Json
