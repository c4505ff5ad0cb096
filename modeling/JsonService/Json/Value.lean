import JsonService.Entries

/-!
# JSON values

Values, the order of an object's members, and the removal of null members. An object is a list of members;
one that was read has its keys strictly ascending, one that is to be written has them in writing order.
-/
namespace JsonService

inductive Json.Number where
  /-- A whole number from `-2 ^ 63` to below `2 ^ 64`. -/
  | whole (n : Int)
  | double (x : Float)
  /-- Never read from a document; written with the fewest digits that tell it from other singles. -/
  | single (x : Float32)

inductive Json where
  | null
  | bool (b : Bool)
  | number (n : Json.Number)
  | text (s : String)
  | list (items : List Json)
  | object (members : List (String × Json))

namespace Json

def nat (n : Nat) : Json := .number (.whole n)

def isNull : Json → Bool
  | .null => true
  | _ => false

def get? (key : String) : Json → Option Json
  | .object members => Entries.get? key members
  | _ => none

mutual

/-- The value without the null members of its objects, at every depth. A null that is no member
stays. Models `strip_nulls`. -/
def stripNulls : Json → Json
  | .list items => .list (stripItems items)
  | .object members => .object (stripMembers members)
  | v => v

/-- Every item of a list without its null members; the items themselves all stay. -/
def stripItems : List Json → List Json
  | [] => []
  | v :: rest => stripNulls v :: stripItems rest

/-- The members that are not null, each without its own null members. -/
def stripMembers : List (String × Json) → List (String × Json)
  | [] => []
  | (k, v) :: rest => if v.isNull then stripMembers rest else (k, stripNulls v) :: stripMembers rest

end

end Json

end JsonService
