import JsonService.Text.Form

/-!
# Request targets

The target of a request: a path with a query, an absolute address, or a bare authority. A fragment is not
part of it.
-/
namespace JsonService

structure Target where
  /-- What stands before the path: nothing, or a scheme and an authority. -/
  origin : String
  path : String
  query : Option String
  deriving DecidableEq, Repr

namespace Target

def upTo (p : Char → Bool) (cs : List Char) : List Char := cs.takeWhile fun c => !p c

/-- A path and its query. -/
def ofPath (origin : List Char) (cs : List Char) : Target where
  origin := String.ofList origin
  path := String.ofList (upTo (· = '?') cs)
  query := match cs.dropWhile (· ≠ '?') with
    | [] => none
    | _ :: q => some (String.ofList q)

def inScheme (c : Char) : Bool := c.isAlphanum || ['+', '-', '.', '~'].contains c

/-- A scheme as it is written: the two common ones in small letters, every other one as it is. -/
def schemeText (name : List Char) : List Char :=
  let small := name.map Char.toLower
  if small = "http".toList ∨ small = "https".toList then small else name

/-- The scheme that `cs` start with, if they do, and what follows its mark. -/
def takeScheme? (cs : List Char) : Option (List Char × List Char) :=
  match cs.dropWhile inScheme with
  | ':' :: '/' :: '/' :: rest => some (cs.takeWhile inScheme, rest)
  | _ => none

/-- Reads a target. An absolute address without a path has the path `/`. -/
def parse (s : String) : Target :=
  let cs := upTo (· = '#') s.toList
  match cs with
  | '/' :: _ | ['*'] => ofPath [] cs
  | _ =>
    match takeScheme? cs with
    | some (scheme, rest) =>
      let authority := upTo (fun c => c = '/' ∨ c = '?') rest
      let t := ofPath (schemeText scheme ++ "://".toList ++ authority) (rest.drop authority.length)
      if t.path = "" then { t with path := "/" } else t
    | none => ⟨String.ofList cs, "", none⟩

def render (t : Target) : String :=
  t.origin ++ t.path ++ match t.query with
    | some q => "?" ++ q
    | none => ""

/-- The pairs of the query, in order; none if there is no query. -/
def pairs (t : Target) : List (String × String) :=
  match t.query with
  | some q => Text.Form.decode (Text.Utf8.bytes q)
  | none => []

end Target

end JsonService
