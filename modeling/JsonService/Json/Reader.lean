import JsonService.Json.Token

/-!
# Reading JSON

A machine that takes the tokens of a text one by one. Its state is the lists and objects that are still
open and what may come next; a text is a value when the machine is done after its last token. Models
`serde_json::Value` read from a slice.
-/
namespace JsonService.Json

/-- A list or object that is still open, with what it holds so far. -/
inductive Frame where
  /-- The items so far, the last one first. -/
  | list (items : List Json)
  /-- The members so far, in ascending order of their keys. -/
  | object (members : List (String × Json))
  /-- The same, and a key that still needs its value. -/
  | member (members : List (String × Json)) (key : String)

/-- What may come next. -/
inductive Awaiting where
  | value
  /-- A first item, or the end of the list. -/
  | firstItem
  /-- An item after a comma. -/
  | item
  /-- A first key, or the end of the object. -/
  | firstKey
  /-- A key after a comma. -/
  | key
  | colon
  /-- A comma, or the end of the innermost list or object. -/
  | comma
  /-- Nothing: the value is complete. -/
  | nothing (v : Json)

/-- The state of the machine. -/
structure Reader where
  frames : List Frame := []
  awaiting : Awaiting := .value

namespace Reader

/-- Lists and objects may be nested less deep than this. -/
def depthLimit : Nat := 128

/-- A value has been read: the whole one, or one for the innermost list or object. -/
def give (v : Json) : List Frame → Reader
  | [] => ⟨[], .nothing v⟩
  | .list items :: frames => ⟨.list (v :: items) :: frames, .comma⟩
  | .member members key :: frames => ⟨.object (Entries.insert key v members) :: frames, .comma⟩
  | .object members :: frames => ⟨.object members :: frames, .comma⟩

def unexpected (t : Token) (f : Fault) : Except Located α := .error ⟨f, t.first + 1⟩

/-- Opens a list or object, unless that is too deep. -/
def enter (t : Token) (frames : List Frame) (frame : Frame) (awaiting : Awaiting) : Except Located Reader :=
  if frames.length + 1 < depthLimit then .ok ⟨frame :: frames, awaiting⟩ else unexpected t .nestedTooDeep

/-- The first token of a value. -/
def takeValue (frames : List Frame) (t : Token) : Except Located Reader :=
  match t.kind with
  | .null => .ok (give .null frames)
  | .bool b => .ok (give (.bool b) frames)
  | .number value => value.map fun n => give (.number n) frames
  | .text value => value.map fun s => give (.text s) frames
  | .openList => enter t frames (.list []) .firstItem
  | .openObject => enter t frames (.object []) .firstKey
  | .broken _ e _ => .error e
  | _ => unexpected t .expectedValue

def takeKey (frames : List Frame) (t : Token) : Except Located Reader :=
  match t.kind, frames with
  | .text value, .object members :: rest => value.map fun key => ⟨.member members key :: rest, .colon⟩
  | .broken true e _, _ => .error e
  | _, _ => unexpected t .keyNotText

/-- The end of the innermost list or object, or a comma. -/
def takeComma (frames : List Frame) (t : Token) : Except Located Reader :=
  match t.kind, frames with
  | .comma, .list _ :: _ => .ok ⟨frames, .item⟩
  | .comma, .object _ :: _ => .ok ⟨frames, .key⟩
  | .closeList, .list items :: rest => .ok (give (.list items.reverse) rest)
  | .closeObject, .object members :: rest => .ok (give (.object members) rest)
  | _, .object _ :: _ => unexpected t .expectedCommaOrBrace
  | _, _ => unexpected t .expectedCommaOrBracket

/-- The machine after one more token. -/
def step (r : Reader) (t : Token) : Except Located Reader :=
  match r.awaiting with
  | .value => takeValue r.frames t
  | .firstItem => match t.kind with
    | .closeList => takeComma r.frames t
    | _ => takeValue r.frames t
  | .item => match t.kind with
    | .closeList => unexpected t .trailingComma
    | _ => takeValue r.frames t
  | .firstKey => match t.kind with
    | .closeObject => takeComma r.frames t
    | _ => takeKey r.frames t
  | .key => match t.kind with
    | .closeObject => unexpected t .trailingComma
    | _ => takeKey r.frames t
  | .colon => match t.kind with
    | .colon => .ok ⟨r.frames, .value⟩
    | _ => unexpected t .expectedColon
  | .comma => takeComma r.frames t
  | .nothing _ => unexpected t .trailingCharacters

/-- The fault of a text that ends in this state, if it is one. -/
def finish (r : Reader) : Except Fault Json :=
  match r.awaiting, r.frames with
  | .nothing v, _ => .ok v
  | .firstItem, _ => .error .endInList
  | .firstKey, _ => .error .endInObject
  | .colon, _ => .error .endInObject
  | .comma, .list _ :: _ => .error .endInList
  | .comma, _ => .error .endInObject
  | .value, _ | .item, _ | .key, _ => .error .endInValue

end Reader

/-- Reads a whole text. -/
def read (bs : List UInt8) : Except Located Json := do
  let r ← (tokens bs).foldlM Reader.step {}
  match r.finish with
  | .ok v => .ok v
  | .error f => .error ⟨f, bs.length⟩

/-- Reads a whole text; a fault is told in words. -/
def parse (bs : List UInt8) : Except String Json :=
  match read bs with
  | .ok v => .ok v
  | .error e => .error (e.message bs)

end JsonService.Json
