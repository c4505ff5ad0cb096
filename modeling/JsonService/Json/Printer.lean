import JsonService.Decimal.Layout
import JsonService.Json.Value

/-!
# JSON texts

The compact text of a value: no blanks, members in the order they stand in, and only those characters of a
string escaped that must be. Models `serde_json::to_vec`.
-/
namespace JsonService.Json

/-- The letter that follows the backslash in the short escape of a character. -/
def shortEscape? (c : Char) : Option Char :=
  if c = '"' then some '"'
  else if c = '\\' then some '\\'
  else if c = '\x08' then some 'b'
  else if c = '\x0c' then some 'f'
  else if c = '\n' then some 'n'
  else if c = '\r' then some 'r'
  else if c = '\t' then some 't'
  else none

def escapeChar (c : Char) : List Char :=
  match shortEscape? c with
  | some e => ['\\', e]
  | none =>
    if c.toNat < 0x20 then
      ['\\', 'u', '0', '0', Nat.digitChar (c.toNat / 16), Nat.digitChar (c.toNat % 16)]
    else [c]

def quote (s : String) : List Char := '"' :: s.toList.flatMap escapeChar ++ ['"']

/-- The text of a number. One that is not finite has none and is written as null. -/
def Number.render : Number → String
  | .whole n => toString n
  | .double x => (Decimal.renderFinite? .double .jsonDouble x.toBits.toNat).getD "null"
  | .single x => (Decimal.renderFinite? .single .jsonSingle x.toBits.toNat).getD "null"

mutual

/-- The characters of a value. -/
def chars : Json → List Char
  | .null => "null".toList
  | .bool b => (if b then "true" else "false").toList
  | .number n => n.render.toList
  | .text s => quote s
  | .list [] => ['[', ']']
  | .list (v :: rest) => '[' :: (chars v ++ itemChars rest)
  | .object [] => ['\x7b', '\x7d']
  | .object ((k, v) :: rest) => '\x7b' :: (quote k ++ ':' :: (chars v ++ memberChars rest))

/-- The characters of the items after the first, and the end of the list. -/
def itemChars : List Json → List Char
  | [] => [']']
  | v :: rest => ',' :: (chars v ++ itemChars rest)

/-- The characters of the members after the first, and the end of the object. -/
def memberChars : List (String × Json) → List Char
  | [] => ['\x7d']
  | (k, v) :: rest => ',' :: (quote k ++ ':' :: (chars v ++ memberChars rest))

end

/-- The compact text of a value. -/
def render (v : Json) : String := String.ofList (chars v)

end JsonService.Json
