import JsonService.Http.Header
import JsonService.Http.Method
import JsonService.Http.Target

/-!
# Requests

A request whose body has been read and whose route has been found.
-/
namespace JsonService

/-- A request as handlers see it. Models `Request`. -/
structure Request where
  method : Method
  target : Target
  /-- Names are small; values of one name are in order. -/
  headers : List (String × List UInt8) := []
  body : List UInt8 := []
  /-- What the parameters of the route stand for. -/
  params : List (String × String) := []
  /-- The address it came from, if it came over a connection. -/
  remote : Option String := none

namespace Request

def path (r : Request) : String := r.target.path

/-- The first header of a name, in either case, if it is visible throughout. Models
`Request::header`. -/
def header (r : Request) (name : String) : Option String := do
  let name ← Header.name? name
  let (_, value) ← r.headers.find? (·.1 = name)
  Header.visible? value

/-- What a parameter of the route stands for; of several parameters of one name the last counts.
Models `Request::param`. -/
def param (r : Request) (name : String) : Option String :=
  (r.params.reverse.find? (·.1 = name)).map (·.2)

/-- The first value of a query parameter. Models `Request::query_param`. -/
def queryParam (r : Request) (key : String) : Option String := Text.Form.lookup key r.target.pairs

/-- The first value of a query parameter, or the default if it is absent or empty. Models
`Request::query`. -/
def query (r : Request) (key default : String) : String :=
  match r.queryParam key with
  | some v => if v.isEmpty then default else v
  | none => default

end Request

end JsonService
