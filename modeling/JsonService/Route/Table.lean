import JsonService.Http.Method
import JsonService.Route.Spelling
import JsonService.Route.Tree

/-!
# Route tables

A tree of routes for every method. A path that no route of its method takes may still be known to another
method.
-/
namespace JsonService.Route

/-- The routes of every method. Models `Routes`. -/
structure Table (α : Type) where
  trees : Method → Tree α := fun _ => .empty

/-- What a table says about a request. Models `Lookup`. -/
inductive Lookup (α : Type) where
  | found (value : α) (params : List (String × String))
  /-- The path is known, but not for this method. -/
  | methodNotAllowed
  | notFound

namespace Table

/-- The bytes of a route as it is written in patterns. -/
def patternBytes (path : String) : List UInt8 := Text.Utf8.bytes (braced path)

/-- Registers a route, which keeps what an unsuccessful attempt has added. Models `Routes::insert`.
-/
def insert (t : Table α) (method : Method) (path : String) (value : α) : Outcome × Table α :=
  let (outcome, tree) := (t.trees method).add (patternBytes path) value
  (outcome, { trees := fun m => if m = method then tree else t.trees m })

/-- Looks a request up. Models `Routes::lookup`. -/
def lookup (t : Table α) (method : Method) (path : String) : Lookup α :=
  let bs := Text.Utf8.bytes path
  match (t.trees method).find bs with
  | some m => .found m.leaf.value m.params
  | none =>
    if Method.all.any fun m => m ≠ method ∧ ((t.trees m).find bs).isSome then .methodNotAllowed
    else .notFound

end Table

end JsonService.Route
