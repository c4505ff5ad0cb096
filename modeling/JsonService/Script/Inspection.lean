import JsonService.Json.Value
import JsonService.Request
import JsonService.Task

/-!
# Inspections

A report of a request as its handler sees it: what is asked for by name, and everything else as it is.
-/
namespace JsonService.Script

structure Inspection where
  params : List String := []
  queryParams : List String := []
  headers : List String := []
  /-- Query parameters with their defaults. -/
  queries : List (String × String) := []

def textOrNull : Option String → Json
  | some s => .text s
  | none => .null

/-- Bytes: a text if they spell one, else their hexadecimal digits. -/
def bytesJson (bs : List UInt8) : Json :=
  match Text.Utf8.decode? bs with
  | some cs => .text (String.ofList cs)
  | none => .object [("hex", .text (String.ofList (bs.flatMap fun b =>
      [Nat.digitChar (b.toNat / 16), Nat.digitChar (b.toNat % 16)])))]

def statusOrNull : Option Status → Json
  | some s => .nat s.code
  | none => .null

/-- Names with what is found under them. -/
def answers (names : List String) (find : String → Option String) : Json :=
  .list (names.map fun n => .list [.text n, textOrNull (find n)])

def Inspection.report (i : Inspection) (req : Request) (view : View σ) : Json :=
  .object
    [("body", bytesJson req.body),
     ("cancelled", .bool view.cancelled),
     ("ctx_status", statusOrNull view.status),
     ("has_remote_addr", .bool req.remote.isSome),
     ("header", answers i.headers req.header),
     ("header_count", .nat req.headers.length),
     ("method", .text req.method.name),
     ("params", answers i.params req.param),
     ("path", .text req.path),
     ("query", .list (i.queries.map fun (k, d) => .list [.text k, .text (req.query k d)])),
     ("query_param", answers i.queryParams req.queryParam),
     ("uri", .text req.target.render)]

end JsonService.Script
