import JsonService.Http.Header
import JsonService.Http.Status

/-!
# Responses

What handlers answer with, how it is built, and what of it goes on the wire.
-/
namespace JsonService

/-- An answer to a request. Models `Response`. -/
structure Response where
  status : Status := .ok
  /-- Names and values as they were given, in order. -/
  headers : List (String × String) := []
  body : List UInt8 := []
  deriving DecidableEq

namespace Response

def jsonType : String := "application/json"

def textType : String := "text/plain; charset=utf-8"

/-- A response that is being built: everything but its body. Models `ResponseBuilder`. -/
structure Builder where
  status : Status := .ok
  headers : List (String × String) := []

namespace Builder

/-- Sets the status; the last one set counts. Models `ResponseBuilder::status`. -/
def withStatus (b : Builder) (s : Status) : Builder := { b with status := s }

/-- Adds a header. Models `ResponseBuilder::header`. -/
def header (b : Builder) (name value : String) : Builder := { b with headers := b.headers ++ [(name, value)] }

/-- Ends with a body of some media type, which is the first header. Models
`ResponseBuilder::finish`. -/
def finish (b : Builder) (type : String) (body : List UInt8) : Response :=
  { status := b.status, headers := ("content-type", type) :: b.headers, body }

/-- Ends with a JSON body. Models `ResponseBuilder::json`. -/
def json (b : Builder) (body : List UInt8) : Response := b.finish jsonType body

/-- Ends with a text. Models `ResponseBuilder::text`. -/
def text (b : Builder) (s : String) : Response := b.finish textType (Text.Utf8.bytes s)

/-- Ends without a body. Models `ResponseBuilder::no_body`. -/
def noBody (b : Builder) : Response := { status := b.status, headers := b.headers }

end Builder

/-- A JSON body with status 200. Models `Response::json`. -/
def json (body : List UInt8) : Response := ({} : Builder).json body

/-- A text with status 200. Models `Response::text`. -/
def text (s : String) : Response := ({} : Builder).text s

def ofStatus (s : Status) : Response := (({} : Builder).withStatus s).noBody

/-- The first header of a name, in either case. Models `Response::header`. -/
def header (r : Response) (name : String) : Option String :=
  (r.headers.find? fun h => Header.sameName h.1 name).map (·.2)

/-- Adds a header at the end. Models `Response::push_header`. -/
def push (r : Response) (name value : String) : Response :=
  { r with headers := r.headers ++ [(name, value)] }

/-- A response on the wire. -/
structure Wire where
  status : Status
  /-- Small names; values of one name are in order. -/
  headers : List (String × String)
  body : List UInt8
  deriving DecidableEq

/-- A header as it goes on the wire, if it may. -/
def wireHeader? (h : String × String) : Option (String × String) :=
  match Header.name? h.1 with
  | some name => if Header.isValue h.2 then some (name, h.2) else none
  | none => none

/-- The response on the wire: headers that may not be there are dropped. Models
`Response::into_inner`. -/
def toWire (r : Response) : Wire := ⟨r.status, r.headers.filterMap wireHeader?, r.body⟩

/-- The names of the headers that are dropped on the way to the wire. -/
def dropped (r : Response) : List String :=
  (r.headers.filter fun h => (wireHeader? h).isNone).map (·.1)

end Response

end JsonService
