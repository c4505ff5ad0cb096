import JsonService.Beers.Entry
import JsonService.Check
import JsonService.Decode

/-!
# Sample payloads

Types of payload to decode: records whose fields may all be absent and are checked afterwards, one that is
strict about its shape, and plain values.
-/
namespace JsonService.Script

/-- A type of payload with the JSON value of what was decoded. -/
structure Sample where
  {Content : Type}
  payload : Payload Content
  toJson : Content → Json

def Sample.decode (s : Sample) (body : List UInt8) : Except Failure Json :=
  (s.payload.decode body).map s.toJson

namespace Sample

open Beers (NewBeer NewReview)
open Json (Shape)

/-! ## Records whose fields may be absent -/

/-- A beer: every field is required, by its checks. -/
def beer : Sample where
  payload :=
    { shape := NewBeer.shape "Beer"
      validate := fun b => check
        [.required "name" b.name, .required "brewery" b.brewery, .required "style" b.style,
         .requiredNumber "abv" (widen b.abv), .required "short_desc" b.shortDesc] }
  toJson := fun b => .object
    [("name", .text b.name), ("brewery", .text b.brewery), ("style", .text b.style),
     ("abv", .number (.single b.abv)), ("short_desc", .text b.shortDesc)]

/-- A review by a user who is named by a UUID. -/
def review : Sample where
  payload :=
    { shape := NewReview.shape "Review"
      validate := fun r => check
        [.required "user_id" r.userId, .uuid "user_id" r.userId, .range "score" (widen r.score) 1 5,
         .required "comment" r.comment] }
  toJson := fun r => .object
    [("user_id", .text r.userId), ("score", .number (.single r.score)), ("comment", .text r.comment)]

structure Renamed where
  shortDesc : String := ""
  maxSize : Nat := 0

/-- A record whose fields a client writes in camel case. -/
def renamed : Sample where
  payload :=
    { shape := Shape.Record.shape
        { name := "Renamed", start := ({} : Renamed)
          fields :=
            [Shape.field "shortDesc" Shape.text fun x r => { r with shortDesc := x },
             Shape.field "maxSize" (Shape.unsigned 8) fun x r => { r with maxSize := x }] }
      validate := fun r => check
        [.required "shortDesc" r.shortDesc, .requiredNumber "maxSize" (Float.ofNat r.maxSize)] }
  toJson := fun r => .object [("shortDesc", .text r.shortDesc), ("maxSize", .nat r.maxSize)]

/-! ## A strict record -/

inductive Kind where
  | ale | lager | stout

def Kind.name : Kind → String
  | .ale => "ale"
  | .lager => "lager"
  | .stout => "stout"

/-- Reads a kind by its name. -/
def Kind.shape : Shape Kind :=
  Shape.variant [(Kind.ale.name, .ale), (Kind.lager.name, .lager), (Kind.stout.name, .stout)]

structure Origin where
  year : Int := 0
  city : Option String := none

/-- Where a beer comes from; the city may be missing. -/
def Origin.shape : Shape Origin := Shape.Record.shape
  { name := "Origin", start := {}
    fields :=
      [Shape.field "year" (Shape.signed 16) (fun x o => { o with year := x }) .refused,
       Shape.field "city" (Shape.optional Shape.text) (fun x o => { o with city := x }) .optional] }

def optionalText : Option String → Json
  | some s => .text s
  | none => .null

structure Strict where
  id : Nat := 0
  name : String := ""
  kind : Kind := .ale
  tags : List String := []
  note : Option String := none
  origin : Option Origin := none

/-- A record that refuses members it does not know. -/
def strict : Sample where
  payload :=
    { shape := Shape.Record.shape
        { name := "Strict", start := ({} : Strict), closed := true
          fields :=
            [Shape.field "id" (Shape.unsigned 32) (fun x s => { s with id := x }) .refused,
             Shape.field "name" Shape.text (fun x s => { s with name := x }) .refused,
             Shape.field "kind" Kind.shape (fun x s => { s with kind := x }) .refused,
             Shape.field "tags" (Shape.list Shape.text) (fun x s => { s with tags := x }) .refused,
             Shape.field "note" (Shape.optional Shape.text) (fun x s => { s with note := x }) .optional,
             Shape.field "origin" (Shape.optional Origin.shape) (fun x s => { s with origin := x }) .optional] }
      validate := fun s => check
        [.required "name" s.name, .range "id" (Float.ofNat s.id) 1 1000,
         ⟨"tags", !s.tags.isEmpty, "tags must not be empty"⟩,
         ⟨"tags", s.tags.length ≤ 3, "tags must hold at most 3 entries"⟩] }
  toJson := fun s => .object
    [("id", .nat s.id), ("name", .text s.name), ("kind", .text s.kind.name),
     ("tags", .list (s.tags.map .text)), ("note", optionalText s.note),
     ("origin", match s.origin with
       | some o => .object [("year", .number (.whole o.year)), ("city", optionalText o.city)]
       | none => .null)]

/-! ## Plain values -/

def plain (shape : Shape α) (toJson : α → Json) : Sample := ⟨{ shape := shape }, toJson⟩

def any : Sample := plain Shape.any id
def list : Sample := plain (Shape.list (Shape.signed 64)) fun ns => .list (ns.map fun n => .number (.whole n))
def text : Sample := plain Shape.text .text
def flag : Sample := plain Shape.bool .bool
def single : Sample := plain Shape.single fun x => .number (.single x)
def pair : Sample := plain (Shape.pair (Shape.unsigned 8) Shape.text) fun (n, s) => .list [.nat n, .text s]
def maybe : Sample := plain (Shape.optional (Shape.unsigned 64)) fun
  | some n => .nat n
  | none => .null
def table : Sample :=
  plain (Shape.table (Shape.list (Shape.optional (Shape.signed 32)))) fun rows =>
    .object (rows.map fun (k, ns) => (k, .list (ns.map fun
      | some n => .number (.whole n)
      | none => .null)))

def all : List (String × Sample) :=
  [("beer", beer), ("review", review), ("renamed", renamed), ("strict", strict), ("any", any),
   ("list", list), ("text", text), ("flag", flag), ("single", single), ("pair", pair), ("maybe", maybe),
   ("table", table)]

def ofName? (name : String) : Option Sample := (all.find? (·.1 = name)).map (·.2)

end Sample

end JsonService.Script
