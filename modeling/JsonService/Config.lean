import JsonService.Address
import JsonService.Config.Environment
import JsonService.Duration
import JsonService.Log.Style

/-!
# Configuration

What a server needs to know before it starts. Every part has a default, over which the environment may lay
another value.
-/
namespace JsonService

/-- Models `ServerConfig`. -/
structure Config where
  address : Address := ⟨.octets ⟨0, 0, 0, 0⟩, 3000⟩
  /-- How long requests may go on once the server has been told to stop. -/
  grace : Duration := .ofSeconds 20
  log : Log.Style := {}
  deriving DecidableEq, Repr

namespace Config

def toJson (c : Config) : Json :=
  .object [("addr", .text c.address.render), ("shutdown_timeout", .text c.grace.render),
    ("log", c.log.toJson)]

def toSetting (c : Config) : Setting :=
  .table
    [("addr", .text c.address.render),
     ("log", .table [("format", .text c.log.format.name), ("level", .text c.log.level)]),
     ("shutdown_timeout", .text c.grace.render)]

/-! ## Faults -/

/-- What is wrong with the value of a setting. -/
inductive Reason where
  | badAddress
  | badDuration (s : String)
  | unknownFormat (name : String)
  /-- The value is of another type. -/
  | unexpected (found : Setting) (expected : String)
  /-- A format is written as a table without entries. -/
  | noFormat

structure Fault where
  path : List String
  reason : Reason

def ticked (name : String) : String := s!"`{name}`"

/-- What a message says about a reason. -/
def Reason.message : Reason → String
  | .badAddress => "invalid socket address syntax"
  | .badDuration s => s!"invalid value string {Text.quoted s}, expected a duration"
  | .unknownFormat name =>
    let expected := String.intercalate " or " (Log.Format.all.map fun f => ticked f.1)
    s!"unknown variant: found `{name}`, expected `{expected}`"
  | .unexpected found expected => s!"invalid type: found {found.describe}, expected {expected}"
  | .noFormat => "invalid type: found map, expected enum"

/-- The message about a fault: the reason and the name of the setting, in large letters. -/
def Fault.message (e : Fault) : String :=
  let key := String.intercalate "." (e.path.map Text.upper)
  s!"{e.reason.message} for key {Text.quoted key} in `{Environment.mark}` environment variable(s)"

/-! ## Reading -/

def readText (path : List String) (expected : String) (v : Setting) : Except Fault String :=
  match v.text? with
  | some s => .ok s
  | none => .error ⟨path, .unexpected v expected⟩

def readAddress (path : List String) (v : Setting) : Except Fault Address := do
  match Address.parse? (← readText path "socket address" v) with
  | some a => return a
  | none => throw ⟨path, .badAddress⟩

def readDuration (path : List String) (v : Setting) : Except Fault Duration := do
  let s ← readText path "a duration" v
  match Duration.parse? s with
  | some d => return d
  | none => throw ⟨path, .badDuration s⟩

def formatOfName (path : List String) (name : String) : Except Fault Log.Format :=
  match Log.Format.all.find? (·.1 = name) with
  | some (_, f) => .ok f
  | none => .error ⟨path, .unknownFormat name⟩

/-- Reads a format: a name. In a table the name would have to come with nothing. -/
def readFormat (path : List String) : Setting → Except Fault Log.Format
  | .text s => formatOfName path s
  | .table [] => .error ⟨path, .noFormat⟩
  | .table ((name, v) :: _) => do
    let path := path ++ [name]
    let _ ← formatOfName path name
    throw ⟨path, .unexpected v "unit"⟩
  | v => .error ⟨path, .unexpected v "enum LogFormat"⟩

def readPart (default : α) (read : Setting → Except Fault α) : Option Setting → Except Fault α
  | some v => read v
  | none => .ok default

/-- Reads how to log, from the entries of a table or the items of a list. -/
def readStyle (path : List String) : Setting → Except Fault Log.Style
  | .table es => do
    let format ← readPart .json (readFormat (path ++ ["format"])) (Entries.get? "format" es)
    let level ← readPart "info" (readText (path ++ ["level"]) "a string") (Entries.get? "level" es)
    return { format, level }
  | .list vs => do
    let format ← readPart .json (readFormat (path ++ ["0"])) vs[0]?
    let level ← readPart "info" (readText (path ++ ["1"]) "a string") vs[1]?
    return { format, level }
  | v => .error ⟨path, .unexpected v "struct LoggingConfig"⟩

/-- Reads a configuration. The entries of a table are read in the order of their names. Models
`ServerConfig::from_figment`. -/
def ofSetting (v : Setting) : Except Fault Config := do
  let es := v.entries
  let c : Config := {}
  let address ← readPart c.address (readAddress ["addr"]) (Entries.get? "addr" es)
  let log ← readPart c.log (readStyle ["log"]) (Entries.get? "log" es)
  let grace ← readPart c.grace (readDuration ["shutdown_timeout"]) (Entries.get? "shutdown_timeout" es)
  return { address, grace, log }

/-- The configuration that an environment asks for. Models `ServerConfig::from_env`. -/
def ofEnvironment (env : Environment) : Except Fault Config := ofSetting (env.layeredOver (toSetting {}))

end Config

end JsonService
