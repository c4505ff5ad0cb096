import JsonService.Beers.Entry
import JsonService.Page
import JsonService.Time

/-!
# The store of beers

Beers and their reviews, each in the order in which they were stored. The score of a beer is the mean of
those of its reviews. Every operation either stores one record at the end or leaves the store as it is.
-/
namespace JsonService.Beers

/-- A stored beer. Models `Beer`. -/
structure Beer where
  id : Uuid
  entry : NewBeer
  /-- The mean of the scores of its reviews; zero without any. -/
  score : Float32 := 0
  created : Time

/-- A stored review. Models `Review`. -/
structure Review where
  id : Uuid
  beer : Uuid
  entry : NewReview
  created : Time

def Beer.toJson (b : Beer) : Json :=
  .object
    [("id", .text b.id.render), ("name", .text b.entry.name), ("brewery", .text b.entry.brewery),
     ("style", .text b.entry.style), ("abv", .number (.single b.entry.abv)),
     ("short_desc", .text b.entry.shortDesc), ("score", .number (.single b.score)),
     ("created_at", .text b.created.render)]

def Review.toJson (r : Review) : Json :=
  .object
    [("id", .text r.id.render), ("beer_id", .text r.beer.render), ("user_id", .text r.entry.userId),
     ("score", .number (.single r.entry.score)), ("comment", .text r.entry.comment),
     ("created_at", .text r.created.render)]

/-- Why an operation is refused. Models `BeerError`. -/
inductive Refusal where
  | notFound
  | invalidId
  | invalid (fields : FieldErrors)
  deriving DecidableEq, Repr

/-- The words for a refusal. -/
def Refusal.message : Refusal → String
  | .notFound => "beer not found"
  | .invalidId => "ID is not in its proper form"
  | .invalid fields => s!"validating data: {FieldErrors.describe fields}"

/-- A refusal as the failure of a handler. -/
def Refusal.toFailure (r : Refusal) : Failure :=
  match r with
  | .notFound => .notFound r.message
  | .invalidId => .invalidId r.message
  | .invalid fields => .validation fields

/-- The beers and their reviews. Models `BeerCore`. -/
structure Store where
  beers : List Beer := []
  reviews : List Review := []

namespace Store

/-- Refuses an entry with failing fields. -/
def accept : FieldErrors → Except Refusal Unit
  | [] => .ok ()
  | fields => .error (.invalid fields)

/-- The beer that a text names: the text has to be a UUID in one of its forms, and the beer is found
only by the form in which its own is written. Models `BeerCore::query_by_id`. -/
def find (s : Store) (id : String) : Except Refusal Beer :=
  if (Uuid.parse? id).isNone then .error .invalidId
  else match s.beers.find? (·.id.render = id) with
    | some b => .ok b
    | none => .error .notFound

def reviewsOf (s : Store) (beer : Uuid) : List Review := s.reviews.filter (·.beer = beer)

/-- The sum of some scores, from left to right, and their number, counted in a word of 32 bits. -/
def tally (scores : List Float32) : Float32 × UInt32 :=
  scores.foldl (fun (sum, count) score => (sum + score, count + 1)) (0, 0)

/-- The sum divided by the count, which is the mean as long as the word has room for the number of scores. From there
on the count begins again at zero; a build that checks its arithmetic stops instead. -/
def mean (scores : List Float32) : Float32 :=
  let (sum, count) := tally scores
  sum / count.toFloat32

/-- Stores a beer under a new identifier. Models `BeerCore::create`. -/
def addBeer (s : Store) (id : Uuid) (entry : NewBeer) (now : Time) : Except Refusal (Beer × Store) := do
  accept entry.validate
  let beer : Beer := { id, entry, created := now }
  return (beer, { s with beers := s.beers ++ [beer] })

/-- The store with the score of a beer brought up to date. -/
def rescore (s : Store) (beer : Uuid) : Store :=
  let score := mean ((s.reviewsOf beer).map (·.entry.score))
  { s with beers := s.beers.map fun b => if b.id = beer then { b with score } else b }

/-- Stores a review of a beer under a new identifier. Its fields are checked before the beer is
looked up. Models `BeerCore::create_review`. -/
def addReview (s : Store) (id : Uuid) (beer : String) (entry : NewReview) (now : Time) :
    Except Refusal (Review × Store) := do
  if (Uuid.parse? beer).isNone then throw .invalidId
  accept entry.validate
  let beer ← s.find beer
  let review : Review := { id, beer := beer.id, entry, created := now }
  return (review, { s with reviews := s.reviews ++ [review] }.rescore beer.id)

/-- Models `BeerCore::query`. -/
def list (s : Store) (page : Page) : List Beer := page.of s.beers

/-- Models `BeerCore::query_reviews`. -/
def listReviews (s : Store) (beer : String) (page : Page) : Except Refusal (List Review) := do
  return page.of (s.reviewsOf (← s.find beer).id)

end Store

end JsonService.Beers
