import JsonService.Check
import JsonService.Decode

/-!
# Entries

What clients send to the beer service: a beer or a review that is to be stored. Every field may be absent
from the text of an entry; the checks say which ones have to be there.
-/
namespace JsonService.Beers

open Json (Shape)

/-- A beer that is to be stored. Models `NewBeer`. -/
structure NewBeer where
  name : String := ""
  brewery : String := ""
  style : String := ""
  abv : Float32 := 0
  shortDesc : String := ""

namespace NewBeer

/-- Reads a beer; `type` is what messages call it. -/
def shape (type : String) : Shape NewBeer := Shape.Record.shape
  { name := type, start := {}
    fields :=
      [Shape.field "name" Shape.text fun x b => { b with name := x },
       Shape.field "brewery" Shape.text fun x b => { b with brewery := x },
       Shape.field "style" Shape.text fun x b => { b with style := x },
       Shape.field "abv" Shape.single fun x b => { b with abv := x },
       Shape.field "short_desc" Shape.text fun x b => { b with shortDesc := x }] }

def rules (b : NewBeer) : List Rule :=
  [.required "name" b.name, .required "brewery" b.brewery, .required "style" b.style,
   .requiredNumber "abv" (widen b.abv), .range "abv" (widen b.abv) 0 100, .required "short_desc" b.shortDesc]

/-- The failing fields of a beer. Models `NewBeer::validate`. -/
def validate (b : NewBeer) : FieldErrors := check b.rules

def payload : Payload NewBeer := ⟨shape "NewBeer", validate⟩

end NewBeer

/-- A review that is to be stored. Models `NewReview`. -/
structure NewReview where
  userId : String := ""
  score : Float32 := 0
  comment : String := ""

namespace NewReview

/-- Reads a review; `type` is what messages call it. -/
def shape (type : String) : Shape NewReview := Shape.Record.shape
  { name := type, start := {}
    fields :=
      [Shape.field "user_id" Shape.text fun x r => { r with userId := x },
       Shape.field "score" Shape.single fun x r => { r with score := x },
       Shape.field "comment" Shape.text fun x r => { r with comment := x }] }

def rules (r : NewReview) : List Rule :=
  [.required "user_id" r.userId, .uuid "user_id" r.userId, .requiredNumber "score" (widen r.score),
   .range "score" (widen r.score) 0 5, .required "comment" r.comment]

/-- The failing fields of a review. Models `NewReview::validate`. -/
def validate (r : NewReview) : FieldErrors := check r.rules

def payload : Payload NewReview := ⟨shape "NewReview", validate⟩

end NewReview

end JsonService.Beers
