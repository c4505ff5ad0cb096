import JsonService.Json.Value

/-!
# Log events

What is logged: a message with a level, named fields, and the request it belongs to.
-/
namespace JsonService.Log

/-- How serious an event is. -/
inductive Level where
  | error | warn | info | debug | trace
  deriving DecidableEq, Repr

def Level.name : Level → String
  | .error => "ERROR"
  | .warn => "WARN"
  | .info => "INFO"
  | .debug => "DEBUG"
  | .trace => "TRACE"

/-- How much a level lets through: every level admits itself and the more serious ones. -/
def Level.rank : Level → Nat
  | .error => 1
  | .warn => 2
  | .info => 3
  | .debug => 4
  | .trace => 5

inductive Value where
  /-- A text, which a line of text shows in quotes. -/
  | text (s : String)
  /-- The words for something, which a line of text shows as they are. -/
  | words (s : String)
  | number (n : Nat)
  | bool (b : Bool)
  deriving DecidableEq, Repr

def Value.toJson : Value → Json
  | .text s | .words s => .text s
  | .number n => .nat n
  | .bool b => .bool b

abbrev Fields := List (String × Value)

/-- The stretch of work that an event belongs to. -/
structure Span where
  name : String
  target : String
  level : Level := .info
  fields : Fields
  deriving DecidableEq, Repr

structure Event where
  level : Level
  target : String := "taproom"
  message : String
  fields : Fields := []
  span : Option Span := none
  deriving DecidableEq, Repr

end JsonService.Log
