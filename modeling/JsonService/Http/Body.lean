import JsonService.Text.Utf8

/-!
# Request bodies

A body arrives in pieces, and reading it may fail after any of them.
-/
namespace JsonService

/-- A body on its way in. -/
structure Body where
  chunks : List (List UInt8) := []
  /-- Why no more comes after the chunks, if that is no proper end. -/
  failure : Option String := none

namespace Body

/-- A body that arrives in one piece. -/
def ofBytes (bs : List UInt8) : Body := { chunks := [bs] }

/-- The whole body, or why it could not be read. -/
def collect (b : Body) : Except String (List UInt8) :=
  match b.failure with
  | some reason => .error reason
  | none => .ok b.chunks.flatten

end Body

end JsonService
