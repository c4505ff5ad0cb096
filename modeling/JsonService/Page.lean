import JsonService.Failure
import JsonService.Request
import JsonService.Text.Digits

/-!
# Pages

A window over a listing, asked for by the query parameters `page`, which counts from one, and `size`.
-/
namespace JsonService

/-- A window over a listing. Models `Page`. -/
structure Page where
  number : Nat := 1
  size : Nat := 10
  deriving DecidableEq, Repr

namespace Page

/-- The first number too large for a page or size. -/
def limit : Nat := UInt32.size

/-- Reads a number: an optional plus sign and digits, at least one, and less than the limit. -/
def number? (s : String) : Option Nat :=
  Text.unsigned? limit s.toList

/-- A parameter of a request; absent or empty it is the default. Models `parse`. -/
def parameter (r : Request) (name : String) (default : Nat) : Except Failure Nat :=
  match r.queryParam name with
  | none => .ok default
  | some raw =>
    if raw.isEmpty then .ok default
    else match number? raw with
      | some n => .ok n
      | none => .error (.badRequest s!"invalid {name} format, {name}[{raw}]")

/-- The page that a request asks for. Models `Page::from_request`. -/
def ofRequest (r : Request) : Except Failure Page := do
  let number ← parameter r "page" 1
  if number = 0 then throw (.badRequest "page must be at least 1, page[0]")
  let size ← parameter r "size" 10
  return { number, size }

def greatestOffset : Nat := UInt64.size - 1

/-- How many items come before the page. Models `Page::offset`. -/
def offset (p : Page) : Nat := min ((p.number - 1) * p.size) greatestOffset

/-- The items of a listing that are on the page. Models `page_of`. -/
def of (items : List α) (p : Page) : List α := (items.drop p.offset).take p.size

end Page

end JsonService
