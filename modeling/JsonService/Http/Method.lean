/-!
# Methods

The methods that routes are registered for. Names are case-sensitive.
-/
namespace JsonService

/-- A request method. Models `Method`. -/
inductive Method where
  | connect | delete | get | head | options | patch | post | put | trace
  deriving DecidableEq, Repr

namespace Method

/-- Models `Method::as_str`. -/
def name : Method → String
  | .connect => "CONNECT"
  | .delete => "DELETE"
  | .get => "GET"
  | .head => "HEAD"
  | .options => "OPTIONS"
  | .patch => "PATCH"
  | .post => "POST"
  | .put => "PUT"
  | .trace => "TRACE"

def all : List Method := [.connect, .delete, .get, .head, .options, .patch, .post, .put, .trace]

/-- Models `Method::from_str`. -/
def ofName? (s : String) : Option Method := all.find? (·.name = s)

/-- Models `UnknownMethod`. -/
def unknownMessage (s : String) : String := s!"unknown method `{s}`"

theorem mem_all (m : Method) : m ∈ all := by cases m <;> decide

theorem ofName?_name (m : Method) : ofName? m.name = some m := by cases m <;> decide

end Method

end JsonService
