import JsonService.Json.Printer
import JsonService.Text.Quoted

/-!
# Mismatches

What is wrong with a well-formed document that does not have the shape its reader asks for.
-/
namespace JsonService.Json

/-- What was found in place of what was asked for. -/
inductive Found where
  | null
  | bool (b : Bool)
  | number (n : Number)
  | text (s : String)
  | list
  | object

def found : Json → Found
  | .null => .null
  | .bool b => .bool b
  | .number n => .number n
  | .text s => .text s
  | .list _ => .list
  | .object _ => .object

def Found.describe : Found → String
  | .null => "null"
  | .bool b => s!"boolean `{b}`"
  | .number (.whole n) => s!"integer `{n}`"
  | .number n => s!"floating point `{n.render}`"
  | .text s => s!"string {Text.quoted s}"
  | .list => "sequence"
  | .object => "map"

/-- How a document misses the shape asked for. -/
inductive Mismatch where
  | type (found : Found) (expected : String)
  | value (found : Found) (expected : String)
  | length (count : Nat) (expected : String)
  | missingField (name : String)
  | duplicateField (name : String)
  | unknownField (name : String) (known : List String)
  | unknownVariant (name : String) (known : List String)

/-- The names that would have been right. -/
def oneOf : List String → String
  | [] => ""
  | [a] => s!"`{a}`"
  | [a, b] => s!"`{a}` or `{b}`"
  | names => "one of " ++ String.intercalate ", " (names.map fun n => s!"`{n}`")

def Mismatch.message : Mismatch → String
  | .type found expected => s!"invalid type: {found.describe}, expected {expected}"
  | .value found expected => s!"invalid value: {found.describe}, expected {expected}"
  | .length count expected => s!"invalid length {count}, expected {expected}"
  | .missingField name => s!"missing field `{name}`"
  | .duplicateField name => s!"duplicate field `{name}`"
  | .unknownField name [] => s!"unknown field `{name}`, there are no fields"
  | .unknownField name known => s!"unknown field `{name}`, expected {oneOf known}"
  | .unknownVariant name [] => s!"unknown variant `{name}`, there are no variants"
  | .unknownVariant name known => s!"unknown variant `{name}`, expected {oneOf known}"

end JsonService.Json
