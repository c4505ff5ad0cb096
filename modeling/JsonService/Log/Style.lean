import JsonService.Json.Document
import JsonService.Json.Printer

/-!
# Log styles

How a process logs: the format of its lines, and the filter that an event has to pass.
-/
namespace JsonService.Log

/-- Models `LogFormat`. -/
inductive Format where
  | json | text
  deriving DecidableEq, Repr

def Format.name : Format → String
  | .json => "json"
  | .text => "text"

def Format.all : List (String × Format) := [(Format.json.name, .json), (Format.text.name, .text)]

/-- Models `LoggingConfig`. -/
structure Style where
  format : Format := .json
  /-- The text of a filter, such as `info` or `info,store=debug`. -/
  level : String := "info"
  deriving DecidableEq, Repr

namespace Style

def toJson (s : Style) : Json := .object [("format", .text s.format.name), ("level", .text s.level)]

/-- Reads a style; both members may be absent. -/
def record : Json.Document.Record Style where
  name := "LoggingConfig"
  start := {}
  fields :=
    [{ name := "format", absence := .defaulted
       read := (Json.Document.variant Format.all).map fun f s => { s with format := f } },
     { name := "level", absence := .defaulted
       read := (Json.Document.text "a string").map fun l s => { s with level := l } }]

/-- Reads a style from its text. -/
def parse (bs : List UInt8) : Except String Style := Json.Document.parse record.document bs

end Style

end JsonService.Log
