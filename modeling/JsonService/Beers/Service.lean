import JsonService.App
import JsonService.Beers.Store
import JsonService.Health
import JsonService.Layers

/-!
# The beer service

The routes of the service over its store, within all of the built-in layers.
-/
namespace JsonService.Beers

/-- What the service keeps. -/
structure Cellar where
  store : Store := {}
  /-- How many identifiers have been given out. -/
  given : Nat := 0
  /-- The identifiers, in the order in which they are given out. -/
  ids : Nat → Uuid := .fresh 2

namespace Cellar

/-- The identifier that is given out next. -/
def nextId (c : Cellar) : Uuid := c.ids c.given

/-- Keeps what an operation makes of the store, whose new record takes an identifier. -/
def keep (c : Cellar) : Except Refusal (α × Store) → Except Refusal α × Cellar
  | .ok (a, store) => (.ok a, { c with store, given := c.given + 1 })
  | .error r => (.error r, c)

def addBeer (entry : NewBeer) (now : Time) (c : Cellar) : Except Refusal Beer × Cellar :=
  c.keep (c.store.addBeer c.nextId entry now)

def addReview (beer : String) (entry : NewReview) (now : Time) (c : Cellar) : Except Refusal Review × Cellar :=
  c.keep (c.store.addReview c.nextId beer entry now)

end Cellar

namespace Service

/-- Responds with a value, unless there is a refusal. -/
def respondWith (toJson : α → Json) (status : Status) : Except Refusal α → Task Cellar Result
  | .ok a => respond (.ok (toJson a)) status
  | .error r => return .error r.toFailure

/-- Responds with a listing; an empty one has no body. Models `respond_list`. -/
def respondList (toJson : α → Json) (items : List α) : Task Cellar Result :=
  if items.isEmpty then respond (.ok .null) .noContent else respond (.ok (.list (items.map toJson))) .ok

/-- The beer that a request names. -/
def idOf (req : Request) : String := (req.param "id").getD ""

/-- Stores a beer. Models `create`. -/
def create : Handler Cellar := fun ctx req => do
  match NewBeer.payload.decode req.body with
  | .error e => return .error e
  | .ok entry => respondWith Beer.toJson .created (← Task.update (Cellar.addBeer entry ctx.arrived))

/-- Models `query_by_id`. -/
def showBeer : Handler Cellar := fun _ req => do
  let view ← Task.look
  respondWith Beer.toJson .ok (view.service.store.find (idOf req))

/-- Lists a page of beers. Models `query`. -/
def list : Handler Cellar := fun _ req => do
  match Page.ofRequest req with
  | .error e => return .error e
  | .ok page =>
    let view ← Task.look
    respondList Beer.toJson (view.service.store.list page)

/-- Stores a review. Models `create_review`. -/
def createReview : Handler Cellar := fun ctx req => do
  match NewReview.payload.decode req.body with
  | .error e => return .error e
  | .ok entry =>
    respondWith Review.toJson .created (← Task.update (Cellar.addReview (idOf req) entry ctx.arrived))

/-- Lists a page of the reviews of a beer. Models `query_reviews`. -/
def listReviews : Handler Cellar := fun _ req => do
  match Page.ofRequest req with
  | .error e => return .error e
  | .ok page =>
    let view ← Task.look
    match view.service.store.listReviews (idOf req) page with
    | .error r => return .error r.toFailure
    | .ok reviews => respondList Review.toJson reviews

/-- Shows the counters. -/
def counters : Handler Cellar := fun _ _ => do
  let view ← Task.look
  respond (.ok view.counters.toJson) .ok

/-- The routes of the service. Models `routes`. -/
def routes : List (Method × String × Handler Cellar) :=
  [(.get, "/liveness", Health.liveness), (.get, "/readiness", Health.readinessWith (return .ok ())),
   (.get, "/metrics", counters), (.get, "/beers", list), (.post, "/beers", create),
   (.get, "/beers/:id", showBeer), (.post, "/beers/:id/reviews", createReview),
   (.get, "/beers/:id/reviews", listReviews)]

/-- The layers of the service. -/
def layers : List (Layer Cellar) := [Layers.logger, Layers.errors, Layers.metrics, Layers.panics]

/-- The service. -/
def app : App Cellar :=
  routes.foldl (fun app (method, path, handler) => (app.handle method "v1" path handler).2) { layers }

end Service

end JsonService.Beers
