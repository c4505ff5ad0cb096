import JsonService.Proofs.Beers.Exchanges
import JsonService.Proofs.Beers.Naming
import JsonService.Proofs.Pages.Asked
import JsonService.Proofs.Pages.Partition

/-!
# Pages of beers and of reviews

Two kinds of listings are shown a page at a time: all beers, and the reviews of one beer. Between two looks at a listing
others may store beers and reviews.

**Growth (`Extends`).** A call adds at most one record, at the end of its listing. Nothing else about a listing changes
but the scores of beers, which are part of how a beer is shown and not of which beer it is.

**Results.**
* `extends_serves`, `extends_run`: listings only grow, with every call and in every run.
* `Extends.list_full`, `Extends.listReviews_full`: so a page that was full has the same beers, or reviews, from then on.
* `returns_list_page`, `returns_reviews_page`: the handlers respond with what is on the page.
* `shows_listing`: a response with a listing has no body just behind its end.
* `pages_of_listings`: the pages part every listing, they are what the service shows, and full ones stay.
-/
namespace JsonService.Beers

open App (State)
open Text.Utf8 (bytes)

/-- A beer but for its score. -/
def Beer.unscored (b : Beer) : Beer := { b with score := 0 }

@[simp] theorem Beer.unscored_id (b : Beer) : b.unscored.id = b.id := rfl

namespace Store

variable {s s' : Store}

/-- Every listing has at most grown at its end. -/
structure Extends (s s' : Store) : Prop where
  beers : s.beers.map Beer.unscored <+: s'.beers.map Beer.unscored
  reviews : ∀ beer, s.reviewsOf beer <+: s'.reviewsOf beer

theorem Extends.refl (s : Store) : s.Extends s := ⟨List.prefix_rfl, fun _ => List.prefix_rfl⟩

theorem Extends.trans {s₁ s₂ s₃ : Store} (h : s₁.Extends s₂) (h' : s₂.Extends s₃) : s₁.Extends s₃ :=
  ⟨h.beers.trans h'.beers, fun beer => (h.reviews beer).trans (h'.reviews beer)⟩

theorem extends_serves {c : Call} {outcome : Except Refusal Record} (h : s.Serves c outcome s') : s.Extends s' := by
  cases h with
  | beer => exact ⟨by rw [List.map_append]; exact List.prefix_append _ _, fun _ => List.prefix_rfl⟩
  | review _ beers =>
    refine ⟨?_, fun beer => ?_⟩
    · -- the beer has another score
      rw [beers, List.map_append, List.map_append]
      exact List.prefix_rfl
    · exact (reviewsOf_append s _ beer).symm ▸ List.prefix_append _ _
  | invalidBeer | invalidId | invalidReview | unknown => exact .refl s

/-! ## Full pages -/

/-- A page of beers that was full has the same beers. -/
theorem Extends.list_full (ext : s.Extends s') {page : Page} (full : (s.list page).length = page.size) :
    (s'.list page).map Beer.unscored = (s.list page).map Beer.unscored := by
  obtain ⟨more, grown⟩ := ext.beers
  have full' : (page.of (s.beers.map Beer.unscored)).length = page.size := by
    rw [Page.of_map, List.length_map]
    exact full
  rw [list, list, ← Page.of_map, ← Page.of_map, ← grown, Page.of_append full' more]

/-- What finds a beer finds it later on. -/
theorem Extends.find (ext : s.Extends s') (distinct : (s'.beers.map (·.id.render)).Nodup) {text : String} {b : Beer}
    (found : s.find text = .ok b) : ∃ b', s'.find text = .ok b' ∧ b'.id = b.id := by
  obtain ⟨stored, rfl⟩ := find_eq_ok found
  obtain ⟨b', stored', same⟩ := List.mem_map.mp (ext.beers.subset (List.mem_map_of_mem stored))
  have named : b'.id = b.id := by simpa using congrArg Beer.id same
  exact ⟨b', named ▸ find_stored distinct stored', named⟩

/-- A page of the reviews of a beer that was full has the same reviews. -/
theorem Extends.listReviews_full (ext : s.Extends s') (distinct : (s'.beers.map (·.id.render)).Nodup) {text : String}
    {page : Page} {rs : List Review} (listed : s.listReviews text page = .ok rs) (full : rs.length = page.size) :
    s'.listReviews text page = .ok rs := by
  rw [listReviews_eq] at listed ⊢
  cases found : s.find text with
  | error r =>
    rw [found] at listed
    cases listed
  | ok b =>
    rw [found] at listed
    obtain rfl : page.of (s.reviewsOf b.id) = rs := Except.ok.inj listed
    obtain ⟨b', found', named⟩ := ext.find distinct found
    obtain ⟨more, grown⟩ := ext.reviews b.id
    rw [found', ← Page.of_append full more, grown, ← named]
    rfl

end Store

/-! ## Runs -/

theorem extends_step {s s' : Session} {a : Action} (distinct : (s.store.beers.map (·.id.render)).Nodup)
    (h : step s a = some s') : s.store.Extends s'.store := by
  rcases step_cases h with ⟨c, rfl, rfl⟩ | ⟨n, c, rfl, -, rfl⟩
  · exact .refl s.store
  · exact Store.extends_serves (Store.serves_serve distinct c)

theorem extends_run {s s' : Session} {as : List Action} {later : List Uuid}
    (I : Inv s (as.filterMap Action.id? ++ later)) (h : run s as = some s') : s.store.Extends s'.store := by
  induction as generalizing s with
  | nil =>
    obtain rfl : s = s' := Option.some.inj h
    exact .refl s.store
  | cons a as ih =>
    obtain ⟨s₁, first, rest⟩ := Option.bind_eq_some_iff.mp h
    have I : Inv s (a.id?.toList ++ (as.filterMap Action.id? ++ later)) := by
      cases ha : a.id? <;> simpa [ha] using I
    exact (extends_step I.consistent.beers_distinct first).trans (ih (inv_step I first) rest)

/-! ## The service -/

section
variable {α : Type} {toJson : α → Json} {c : Cellar} (ctx : Context) (req : Request)

/-- The response with the items on a page. -/
def listing (toJson : α → Json) (items : List α) : Response :=
  if items.isEmpty then responseOf .null .noContent else responseOf (.list (items.map toJson)) .ok

theorem returns_listing (items : List α) :
    (Service.respondList toJson items).Returns c fun result _ => result = .ok (listing toJson items) := by
  unfold Service.respondList listing
  split
  · exact returns_respond rfl
  · exact returns_respond rfl

theorem returns_list_page {page : Page} (asked : Page.ofRequest req = .ok page) :
    (Service.list ctx req).Returns c fun result _ => result = .ok (listing Beer.toJson (c.store.list page)) := by
  simp only [Service.list, asked]
  refine returns_look fun v hv => ?_
  rw [hv]
  exact returns_listing _

theorem returns_reviews_page {page : Page} (asked : Page.ofRequest req = .ok page) {b : Beer}
    (distinct : (c.store.beers.map (·.id.render)).Nodup) (stored : b ∈ c.store.beers)
    (named : Service.idOf req = b.id.render) : (Service.listReviews ctx req).Returns c
      fun result _ => result = .ok (listing Review.toJson (page.of (c.store.reviewsOf b.id))) := by
  simp only [Service.listReviews, asked]
  refine returns_look fun v hv => ?_
  rw [named, hv, Store.listReviews_eq, Store.find_stored distinct stored]
  exact returns_listing _

end

/-- A page is shown: without a body where there is nothing, which is so behind the end of the listing, else with the
items on it. -/
structure Shows (wire : Response.Wire) (listing : List Json) (page : Page) : Prop where
  past : wire.status = .noContent ↔ page.size = 0 ∨ listing.length ≤ (page.number - 1) * page.size
  nothing : wire.status = .noContent → wire.body = []
  items : wire.status ≠ .noContent → wire.status = .ok ∧ wire.body = bytes (Json.list (page.of listing)).render

/-- Under a path a listing is shown, whichever page is asked for. -/
def Lists (s : State Cellar) (path : String) (listing : List Json) : Prop :=
  ∀ (g : Incoming) (body : List UInt8) (page : Page) (t : Time), g.method = "GET" → g.target.path = path →
    g.body.collect = .ok body → Page.ofRequest { method := .get, target := g.target } = .ok page →
    ∃ wire, (Service.app.call g s t).1.outcome = .answered wire ∧ Shows wire listing page

theorem shows_listing {α : Type} {toJson : α → Json} {items : List α} {page : Page} {wire : Response.Wire}
    (below : page.number < 2 ^ 32 ∧ page.size < 2 ^ 32) (status : wire.status = (listing toJson (page.of items)).status)
    (body : wire.body = (listing toJson (page.of items)).body) : Shows wire (items.map toJson) page := by
  have past := Page.of_eq_nil_iff items below.1 below.2
  rw [← List.isEmpty_iff] at past
  rw [listing] at status body
  cases empty : (page.of items).isEmpty with
  | true =>
    rw [if_pos empty, responseOf_status] at status
    rw [if_pos empty] at body
    exact ⟨by simpa [status] using past.mp empty, fun _ => body, fun h => absurd status h⟩
  | false =>
    rw [if_neg (by simp [empty]), responseOf_status] at status
    rw [if_neg (by simp [empty]), responseOf_body rfl, ← Page.of_map] at body
    have other : wire.status ≠ .noContent := by
      rw [status]
      decide
    refine ⟨⟨fun h => absurd h other, fun h => ?_⟩, fun h => absurd h other, fun _ => ⟨status, body⟩⟩
    rw [List.length_map, ← past, empty] at h
    cases h

theorem lists_beers (s : State Cellar) : Lists s "/v1/beers" (s.shared.service.store.beers.map Beer.toJson) := by
  intro g body page t method path read asked
  have found : table.lookup .get g.target.path = .found .list [] := path ▸ table_list
  obtain ⟨wire, answered, status, body⟩ := call_response (s := s) (m := .get) method found read
    (fun ctx => returns_list_page ctx _ ((Page.ofRequest_congr rfl).trans asked)) t
  exact ⟨wire, answered, shows_listing (Page.below_limit asked) status body⟩

theorem lists_reviews {s : State Cellar} (distinct : (s.shared.service.store.beers.map (·.id.render)).Nodup)
    {b : Beer} (stored : b ∈ s.shared.service.store.beers) :
    Lists s (reviewsPath b.id.render) ((s.shared.service.store.reviewsOf b.id).map Review.toJson) := by
  intro g body page t method path read asked
  have found : table.lookup .get g.target.path = .found .listReviews [("id", b.id.render)] :=
    path ▸ table_listReviews b.id
  obtain ⟨req, hreq⟩ : ∃ req : Request, req =
      { method := .get, target := g.target, headers := g.headers, body, params := [("id", b.id.render)] } := ⟨_, rfl⟩
  have asked' : Page.ofRequest req = .ok page := (Page.ofRequest_congr (by rw [hreq])).trans asked
  have named : Service.idOf req = b.id.render := by
    rw [hreq]
    rfl
  obtain ⟨wire, answered, status, body⟩ := call_response (s := s) (m := .get) method found read
    (fun ctx => hreq ▸ returns_reviews_page ctx req asked' distinct stored named) t
  exact ⟨wire, answered, shows_listing (Page.below_limit asked) status body⟩

/-- **Pages of listings.** The pages of one size part every listing of whatever items. The service shows them: in
whatever order calls to the store began and were served, a page of all beers, and one of the reviews of a stored beer,
has no body just if it is behind the end or has no places, and else has its items. And whatever calls begin or are served
later, listings only grow at their ends, so a page that was full has the same beers, and the same reviews. -/
theorem pages_of_listings (as more : List Action) (s s' : Session) (h : run {} as = some s) (h' : run s more = some s')
    (fresh : ((as ++ more).filterMap Action.id?).Nodup) :
    (∀ {α : Type} (items : List α) {size : Nat}, size < 2 ^ 32 → Page.Parts items size) ∧
    (∀ service : State Cellar, service.shared.service.store = s.store →
      Lists service "/v1/beers" (s.store.beers.map Beer.toJson) ∧
      ∀ b ∈ s.store.beers, Lists service (reviewsPath b.id.render) ((s.store.reviewsOf b.id).map Review.toJson)) ∧
    s.store.Extends s'.store ∧
    (∀ page, (s.store.list page).length = page.size →
      (s'.store.list page).map Beer.unscored = (s.store.list page).map Beer.unscored) ∧
    ∀ text page rs, s.store.listReviews text page = .ok rs → rs.length = page.size →
      s'.store.listReviews text page = .ok rs := by
  rw [List.filterMap_append] at fresh
  have I : Inv s (more.filterMap Action.id?) := inv_run (inv_start fresh) h
  have I : Inv s (more.filterMap Action.id? ++ []) := by rwa [List.append_nil]
  have ext := extends_run I h'
  have distinct' := (inv_run I h').consistent.beers_distinct
  refine ⟨fun items size small => Page.parts items small, ?_, ext, fun page => ext.list_full, ?_⟩
  · rintro service same
    have distinct := I.consistent.beers_distinct
    rw [← same] at distinct ⊢
    exact ⟨lists_beers service, fun b stored => lists_reviews distinct stored⟩
  · exact fun text page rs => ext.listReviews_full distinct'

/-- After the tasting, the call that still waits stores a review: the page with both beers was full, and stays. -/
theorem pages_of_listings_tasting : ∃ s s', (run {} tasting = some s ∧ run s [.serve 0] = some s' ∧
      ((tasting ++ [Action.serve 0]).filterMap Action.id?).Nodup) ∧
    (s.store.list ⟨1, 2⟩).length = 2 ∧ s'.store.reviews.length = 2 ∧
    (s'.store.list ⟨1, 2⟩).map Beer.unscored = (s.store.list ⟨1, 2⟩).map Beer.unscored := by
  have fresh : ((tasting ++ [Action.serve 0]).filterMap Action.id?).Nodup := by decide +kernel
  obtain ⟨s, s', h, h', full, reviewed⟩ : ∃ s s', run {} tasting = some s ∧ run s [.serve 0] = some s' ∧
      (s.store.list ⟨1, 2⟩).length = 2 ∧ s'.store.reviews.length = 2 := ⟨_, _, rfl, rfl, rfl, rfl⟩
  obtain ⟨-, -, -, stays, -⟩ := pages_of_listings tasting [.serve 0] s s' h h' fresh
  exact ⟨s, s', ⟨h, h', fresh⟩, full, reviewed, stays ⟨1, 2⟩ full⟩

end JsonService.Beers
