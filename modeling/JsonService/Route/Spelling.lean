import JsonService.Text.Blank

/-!
# Spelling of routes

A route is registered under a version and a path. Parameters are spelled `:name` or `{name}`, a trailing
catch-all `*name` or `{*name}`; the forms with braces are the ones that patterns are made of.
-/
namespace JsonService.Route

def isSlash (c : Char) : Bool := c = '/'

/-- A segment with its parameter in braces. -/
def braceSegment : List Char → List Char
  | ':' :: name => '\x7b' :: name ++ ['\x7d']
  | '*' :: name => '\x7b' :: '*' :: name ++ ['\x7d']
  | segment => segment

/-- Segments with slashes between them. -/
def joinSegments (segments : List (List Char)) : List Char := List.intercalate ['/'] segments

/-- A path with every parameter in braces. Models `to_matchit`. -/
def braced (path : String) : String :=
  String.ofList (joinSegments ((Text.splitOn isSlash path.toList).map braceSegment))

/-- The path of a route under its version: one slash at the start, one between the two. Models
`versioned`. -/
def versioned (version path : String) : String :=
  let v := Text.stripEnds isSlash version.toList
  let p := path.toList.dropWhile isSlash
  String.ofList <|
    if v.isEmpty then '/' :: p
    else if p.isEmpty then '/' :: v
    else '/' :: v ++ '/' :: p

end JsonService.Route
