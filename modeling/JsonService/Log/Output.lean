import JsonService.Log.Filter
import JsonService.Log.Style
import JsonService.Text.Quoted

/-!
# Log output

The lines that a process writes for its events, as JSON objects or as texts. A process has one output for
all of its life.
-/
namespace JsonService.Log

inductive Line where
  | json (v : Json)
  | text (s : String)

def Line.render : Line → String
  | .json v => v.render
  | .text s => s

def Fields.toJson (fs : Fields) : List (String × Json) := fs.map fun (k, v) => (k, v.toJson)

def Value.inText : Value → String
  | .text s => Text.quoted s
  | .words s => s
  | .number n => toString n
  | .bool b => toString b

def Fields.inText (fs : Fields) : List String := fs.map fun (k, v) => s!"{k}={v.inText}"

def Span.inText (s : Span) : String :=
  if s.fields.isEmpty then s.name
  else s.name ++ "\x7b" ++ String.intercalate " " (Fields.inText s.fields) ++ "\x7d"

def Event.toJson (e : Event) : Json :=
  .object <|
    [("level", .text e.level.name), ("fields", .object (("message", .text e.message) :: Fields.toJson e.fields)),
     ("target", .text e.target)] ++ match e.span with
    | some s => [("span", .object (Fields.toJson s.fields ++ [("name", .text s.name)]))]
    | none => []

def Event.inText (e : Event) : String :=
  let span := match e.span with
    | some s => s!"{s.inText}: "
    | none => ""
  let fields := String.intercalate " " (e.message :: Fields.inText e.fields)
  s!"{e.level.name} {span}{e.target}: {fields}"

def Event.line (e : Event) : Format → Line
  | .json => .json e.toJson
  | .text => .text e.inText

/-- Where the events of a process go. -/
structure Output where
  format : Format
  filter : Filter

/-- The filter of a style. A filter from the environment, if it can be read, takes its place; if
neither can, there is one to fall back to. Models `LoggingConfig::filter`. -/
def Style.filter (s : Style) (fromEnvironment : Option String) : Filter :=
  ((fromEnvironment.bind Filter.parse?) <|> Filter.parse? s.level).getD .fallback

def Style.output (s : Style) (fromEnvironment : Option String) : Output := ⟨s.format, s.filter fromEnvironment⟩

def Output.lines (o : Output) (es : List Event) : List Line := (o.filter.apply es).map (·.line o.format)

/-- The output of a process that has or has not got one: only the first one is installed. Models
`init`. -/
def install (o : Output) : Option Output → Except Output Output
  | none => .ok o
  | some old => .error old

end JsonService.Log
