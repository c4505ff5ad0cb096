import JsonService.Beers.Service
import JsonService.Proofs.Layers.Outcome
import JsonService.Proofs.Route.Params

/-!
# Which requests the beer service answers, and how

The routes of the service, each with what is done there, and what a request looks like that finds one of them.

**Results.**
* `app_eq`: the service is the table of its operations, each within all the layers.
* `holds_table`: every route of the service is in the table.
* `finds_operation`: a request that finds an operation has its method, a path that its route matches, and the segments
  of that path as parameters.
* `path_create`, `path_createReview`: what the paths are under which something is stored.
* `table_operation`: and a request of a method and such a path finds the operation.
* `table_beers`, `table_showBeer`, `table_reviews`: what is found under the paths of beers and reviews.
-/
namespace JsonService.Beers

open Route (Segment Matches segments valuesOf isSlash)

/-- What the service does under its routes. -/
inductive Operation where
  | liveness | readiness | counters | list | create | showBeer | createReview | listReviews
  deriving DecidableEq

namespace Operation

/-- The operations in the order of their routes. -/
def all : List Operation :=
  [.liveness, .readiness, .counters, .list, .create, .showBeer, .createReview, .listReviews]

def endpoint : Operation → App.Endpoint Cellar
  | .liveness => ⟨.get, "v1", "/liveness", Health.liveness⟩
  | .readiness => ⟨.get, "v1", "/readiness", Health.readinessWith (return .ok ())⟩
  | .counters => ⟨.get, "v1", "/metrics", Service.counters⟩
  | .list => ⟨.get, "v1", "/beers", Service.list⟩
  | .create => ⟨.post, "v1", "/beers", Service.create⟩
  | .showBeer => ⟨.get, "v1", "/beers/:id", Service.showBeer⟩
  | .createReview => ⟨.post, "v1", "/beers/:id/reviews", Service.createReview⟩
  | .listReviews => ⟨.get, "v1", "/beers/:id/reviews", Service.listReviews⟩

def layered (o : Operation) : Handler Cellar := o.endpoint.handler.within Service.layers

/-- The segments of a route under the version of the service. -/
def route : Operation → List Segment
  | .liveness => [.literal [], .literal "v1".toList, .literal "liveness".toList]
  | .readiness => [.literal [], .literal "v1".toList, .literal "readiness".toList]
  | .counters => [.literal [], .literal "v1".toList, .literal "metrics".toList]
  | .list | .create => [.literal [], .literal "v1".toList, .literal "beers".toList]
  | .showBeer => [.literal [], .literal "v1".toList, .literal "beers".toList, .parameter]
  | .createReview | .listReviews =>
    [.literal [], .literal "v1".toList, .literal "beers".toList, .parameter, .literal "reviews".toList]

def attempt (o : Operation) : Route.Attempt Operation :=
  ⟨o.endpoint.method, o.endpoint.version, o.endpoint.path, o⟩

theorem mem_all (o : Operation) : o ∈ all := by
  cases o <;> decide

theorem route_attempt (o : Operation) : o.attempt.route = o.route := by
  cases o <;> decide +kernel

theorem names_attempt (o : Operation) : o.attempt.names = if .parameter ∈ o.route then ["id"] else [] := by
  cases o <;> decide +kernel

theorem eq_of_overlap {o o' : Operation} (method : o.endpoint.method = o'.endpoint.method)
    (overlaps : Route.overlap o.route o'.route = true) : o = o' := by
  have apart : all.all (fun o => all.all fun o' =>
      o.endpoint.method = o'.endpoint.method ∧ Route.overlap o.route o'.route = true → o = o') = true := by
    decide +kernel
  exact of_decide_eq_true (List.all_eq_true.mp (List.all_eq_true.mp apart o (mem_all o)) o' (mem_all o'))
    ⟨method, overlaps⟩

/-- No route has a catch-all. -/
theorem rest_notMem_route (o : Operation) : .rest ∉ o.route := by
  cases o <;> decide

end Operation

/-! ## The table -/

/-- The routes of the service, each leading to what is done there. -/
def table : Route.Table Operation := App.endpointTable Operation.endpoint {} Operation.all

/-- The service is the table of its operations, each within all the layers. -/
theorem app_eq : Service.app = { layers := Service.layers, routes := table.map Operation.layered } := by
  have registered : Service.app =
      App.registerAll { layers := Service.layers } (Operation.all.map fun o => (o.endpoint, [])) := rfl
  have h := App.registerAll_eq Service.layers Operation.endpoint (fun _ => []) {} Operation.all
  rw [Route.Table.map_empty] at h
  rw [registered, h]
  simp only [List.append_nil]
  rfl

theorem app_routes : Service.app.routes = table.map Operation.layered := by
  rw [app_eq]

theorem table_eq : table = Route.Table.after {} (Operation.all.map Operation.attempt) := by
  rw [table, App.endpointTable, Route.Table.after, List.foldl_map]
  rfl

theorem whole_attempt (o : Operation) : o.attempt.Whole := by
  apply Route.whole_of_braceless
  have braceless : (o.attempt.version.toList ++ o.attempt.path.toList).all
      (fun c => c ≠ '\x7b' ∧ c ≠ '\x7d') = true := by
    cases o <;> decide +kernel
  exact fun c hc => of_decide_eq_true (List.all_eq_true.mp braceless c hc)

theorem holds_table : Route.Holds table (Operation.all.map Operation.attempt) := by
  have whole : ∀ a ∈ Operation.all.map Operation.attempt, a.Whole := by
    intro a ha
    obtain ⟨o, -, rfl⟩ := List.mem_map.mp ha
    exact whole_attempt o
  have none_refused : Route.Table.registered {} (Operation.all.map Operation.attempt) =
      Operation.all.map Operation.attempt := by decide +kernel
  have held := Route.Holds.empty.after whole
  rwa [none_refused, List.nil_append, ← table_eq] at held

/-! ## Requests -/

/-- What is looked up is an operation of the method whose route the path matches, and its parameters are segments of
the path. -/
theorem lookup_operation {method : Method} {path : String} {o : Operation} {params : List (String × String)}
    (found : table.lookup method path = .found o params) :
    o.endpoint.method = method ∧ Matches o.route (segments path) ∧
      params = o.attempt.names.zip ((valuesOf o.route (segments path)).map String.ofList) := by
  obtain ⟨r, hr, ⟨hmethod, hmatches⟩, hvalue, hparams⟩ := Route.lookup_params holds_table found
  obtain ⟨o', -, rfl⟩ := List.mem_map.mp hr
  obtain rfl : o' = o := hvalue
  rw [Operation.route_attempt] at hmatches hparams
  exact ⟨hmethod, hmatches, hparams (Operation.rest_notMem_route o')⟩

theorem eq_name_of_ofName? {s : String} {m : Method} (h : Method.ofName? s = some m) : s = m.name := by
  have named := List.find?_some h
  exact (of_decide_eq_true named).symm

/-- What a request looks like that finds an operation. -/
theorem finds_operation {r : Incoming} {o : Operation} {req : Request} (finds : App.Finds table r o req) :
    r.method = o.endpoint.method.name ∧ Matches o.route (segments r.target.path) ∧
      req.params = o.attempt.names.zip ((valuesOf o.route (segments r.target.path)).map String.ofList) := by
  obtain ⟨hmethod, hmatches, hparams⟩ := lookup_operation finds.route
  exact ⟨hmethod ▸ eq_name_of_ofName? finds.method, hmatches, hparams⟩

theorem path_create {path : String} (h : Matches Operation.create.route (segments path)) : path = "/v1/beers" := by
  match hs : segments path with
  | [] | [_] | [_, _] | _ :: _ :: _ :: _ :: _ => rw [hs] at h; simp [Operation.route, Matches] at h
  | [a, b, c] =>
    rw [hs] at h
    obtain ⟨rfl, rfl, rfl, -⟩ := h
    rw [Route.eq_of_segments hs]
    decide

def beerPath (id : String) : String := "/v1/beers/" ++ id

def reviewsPath (id : String) : String := "/v1/beers/" ++ id ++ "/reviews"

theorem segments_reviews {path : String} (h : Matches Operation.createReview.route (segments path)) :
    ∃ id : List Char, segments path = [[], "v1".toList, "beers".toList, id, "reviews".toList] := by
  match hs : segments path with
  | [] | [_] | [_, _] | [_, _, _] | [_, _, _, _] | _ :: _ :: _ :: _ :: _ :: _ :: _ =>
    rw [hs] at h
    simp [Operation.route, Matches] at h
  | [a, b, c, id, e] =>
    rw [hs] at h
    obtain ⟨rfl, rfl, rfl, -, rfl, -⟩ := h
    exact ⟨id, rfl⟩

theorem beerPath_eq (id : String) :
    beerPath id = String.ofList (Route.joinSegments [[], "v1".toList, "beers".toList, id.toList]) := by
  rw [← String.toList_inj]
  simp [beerPath, Route.joinSegments_cons, Route.tailChars]

theorem reviewsPath_eq (id : String) : reviewsPath id =
    String.ofList (Route.joinSegments [[], "v1".toList, "beers".toList, id.toList, "reviews".toList]) := by
  rw [← String.toList_inj]
  simp [reviewsPath, Route.joinSegments_cons, Route.tailChars]

/-- A review is stored under the path of the reviews of the beer that the request names. -/
theorem path_createReview {r : Incoming} {req : Request} (finds : App.Finds table r .createReview req) :
    r.target.path = reviewsPath (Service.idOf req) := by
  obtain ⟨-, hmatches, hparams⟩ := finds_operation finds
  obtain ⟨id, hs⟩ := segments_reviews hmatches
  have named : Service.idOf req = String.ofList id := by
    rw [Service.idOf, Request.param, hparams, hs, Operation.names_attempt]
    rfl
  rw [Route.eq_of_segments hs, named, reviewsPath_eq, String.toList_ofList (l := id)]

/-! ## Paths with an identifier -/

theorem slashless_render (u : Uuid) : Route.Slashless u.render.toList := by
  have digits : ∀ d : Fin 16, Uuid.digitChar d ≠ '/' := by decide
  intro c hc
  rcases Uuid.mem_render hc with rfl | ⟨d, rfl⟩
  · decide
  · exact digits d

theorem slashless_reviews : Route.Slashless "reviews".toList := by
  simp [Route.Slashless]

theorem render_ne_nil (u : Uuid) : u.render.toList ≠ [] := by
  simp [Uuid.render]

theorem segments_under (u : Uuid) {more : List (List Char)} (hmore : ∀ s ∈ more, Route.Slashless s) :
    segments (String.ofList (Route.joinSegments ([] :: "v1".toList :: "beers".toList :: u.render.toList :: more))) =
      [] :: "v1".toList :: "beers".toList :: u.render.toList :: more := by
  refine Route.segments_join ?_
  simp only [List.forall_mem_cons]
  exact ⟨nofun, by simp [Route.Slashless], by simp [Route.Slashless], slashless_render u, hmore⟩

/-- Whatever path its route matches, an operation is looked up there. -/
theorem table_operation {o : Operation} {path : String} (h : Matches o.route (segments path)) :
    table.lookup o.endpoint.method path =
      .found o (o.attempt.names.zip ((valuesOf o.route (segments path)).map String.ofList)) := by
  have answers := Route.lookup_answers holds_table (fun r _ => Method.mem_all r.method) o.endpoint.method path
  rw [← Route.Table.lookup_eq] at answers
  obtain ⟨o', params, found⟩ := answers.found.mpr
    ⟨o.attempt, List.mem_map_of_mem (Operation.mem_all _), rfl, (Operation.route_attempt o).symm ▸ h⟩
  obtain ⟨hmethod, hmatches, hparams⟩ := lookup_operation found
  obtain rfl := Operation.eq_of_overlap hmethod (Route.overlap_of_matches hmatches h)
  rw [found, hparams]

theorem table_beers {o : Operation} (route : o.route = Operation.create.route) :
    table.lookup o.endpoint.method "/v1/beers" = .found o [] := by
  have hs : segments "/v1/beers" = [[], "v1".toList, "beers".toList] := by decide
  have h : Matches o.route (segments "/v1/beers") := by
    rw [route, hs]
    exact ⟨rfl, rfl, rfl, trivial⟩
  refine (table_operation h).trans ?_
  rw [hs, Operation.names_attempt, route]
  rfl

theorem table_create : table.lookup .post "/v1/beers" = .found .create [] := table_beers (o := .create) rfl

theorem table_list : table.lookup .get "/v1/beers" = .found .list [] := table_beers (o := .list) rfl

/-- Under its identifier a beer is looked up. -/
theorem table_showBeer (u : Uuid) :
    table.lookup .get (beerPath u.render) = .found .showBeer [("id", u.render)] := by
  have hs := segments_under u (List.forall_mem_nil _)
  rw [← beerPath_eq] at hs
  have h : Matches Operation.showBeer.route (segments (beerPath u.render)) := by
    rw [hs]
    exact ⟨rfl, rfl, rfl, render_ne_nil u, trivial⟩
  refine (table_operation h).trans ?_
  rw [hs, Operation.names_attempt]
  simp [Operation.route, valuesOf]

/-- Its reviews are listed and stored under a longer path. -/
theorem table_reviews {o : Operation} (route : o.route = Operation.createReview.route) (u : Uuid) :
    table.lookup o.endpoint.method (reviewsPath u.render) = .found o [("id", u.render)] := by
  have hs := segments_under u (List.forall_mem_singleton.mpr slashless_reviews)
  rw [← reviewsPath_eq] at hs
  have h : Matches o.route (segments (reviewsPath u.render)) := by
    rw [route, hs]
    exact ⟨rfl, rfl, rfl, render_ne_nil u, rfl, trivial⟩
  refine (table_operation h).trans ?_
  rw [hs, Operation.names_attempt, route]
  simp [Operation.route, valuesOf]

theorem table_createReview (u : Uuid) :
    table.lookup .post (reviewsPath u.render) = .found .createReview [("id", u.render)] :=
  table_reviews (o := .createReview) rfl u

theorem table_listReviews (u : Uuid) :
    table.lookup .get (reviewsPath u.render) = .found .listReviews [("id", u.render)] :=
  table_reviews (o := .listReviews) rfl u

end JsonService.Beers
