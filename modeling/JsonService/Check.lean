import JsonService.Decimal.Layout
import JsonService.FieldErrors
import JsonService.Text.Blank
import JsonService.Uuid

/-!
# Checks

Rules on the fields of a payload. A chain of rules reports every failing field once, with the message of
the first of its rules that fails.
-/
namespace JsonService

/-- A single as a double: doubles hold every single as it is. -/
def widen (x : Float32) : Float := .ofModel <| .pack <| match x.toModel.unpack with
  | .finite sign mantissa exponent _ => .round .binary64 sign mantissa exponent
  | other => other

/-- A rule on a field, applied to its value. -/
structure Rule where
  field : String
  holds : Bool
  message : String

namespace Rule

/-- A text must not be empty or blank throughout. Models `Checker::required`. -/
def required (field value : String) : Rule := ⟨field, !Text.allBlank value, s!"{field} is a required field"⟩

/-- A number must not be zero. Models `Checker::required_number`. -/
def requiredNumber (field : String) (value : Float) : Rule :=
  ⟨field, value != 0, s!"{field} is a required field"⟩

/-- Whether a text is a UUID in its hyphenated form: of the four forms only that takes thirty-six bytes. -/
def isHyphenatedUuid (s : String) : Bool := s.utf8ByteSize = 36 && (Uuid.parse? s).isSome

/-- A text must be a UUID in its hyphenated form. Models `Checker::uuid`. -/
def uuid (field value : String) : Rule := ⟨field, isHyphenatedUuid value, s!"{field} must be a valid UUID"⟩

def bound (x : Float) : String := Decimal.renderMessage .double x.toBits.toNat

/-- A number must lie within bounds, which belong to the range. Models `Checker::range`. -/
def range (field : String) (value least greatest : Float) : Rule :=
  ⟨field, least ≤ value && value ≤ greatest,
    s!"{field} must be between {bound least} and {bound greatest}"⟩

/-- The field error of a rule that fails. -/
def toFieldError (r : Rule) : FieldError := ⟨r.field, r.message⟩

/-- Adds the error of one more rule, unless the rule holds or its field has failed before. Models
`Checker::check`. -/
def report (errors : FieldErrors) (r : Rule) : FieldErrors :=
  if r.holds ∨ errors.any (·.field = r.field) then errors else errors ++ [r.toFieldError]

end Rule

/-- What a chain of rules reports. Models `Checker`. -/
def check (rules : List Rule) : FieldErrors := rules.foldl Rule.report []

end JsonService
