import JsonService.Proofs.Beers.Handlers
import JsonService.Proofs.Json.Printing

/-!
# The beer service over HTTP

Any requests are given to the service one after another, whatever their methods, paths, queries, headers and bodies,
from an empty store on. Identifiers come from a source of which no more is known than that those of a run are distinct.

**One request (`Exchange`).** Either the answer has status 201 and one record has been stored (`Stores`), or it has
another status, which is no fault of the server, the service is as it was, and nothing was asked for that can be stored
(`Acceptable`).

**Counting.** All this is so as long as no beer has 2 ^ 32 reviews, which are counted in a word of 32 bits: a build that
checks its arithmetic panics at the review for which the word has no room. Reviews only become more, so there was room
before if there is room now, and there is in every run of fewer than 2 ^ 32 requests (`Sound.countFits`).

**Results.**
* `call_exchange`: every request is such an exchange, and no panic is counted.
* `sound_step`, `sound_after`: the store stays consistent, and its identifiers are among those given out.
* `keeps_after`, `call_showBeer`: a stored beer stays but for its score, and is shown under its identifier.
* `beers_over_http`: so for every run, what the answer to a request says has happened, and nothing else has.
-/
namespace JsonService.Beers

open App (State)
open Text.Utf8 (bytes)

/-- A request and when it arrives. -/
abbrev Visit := Incoming × Time

namespace Service

/-- The service before any request, with an empty store. -/
def opened (ids : Nat → Uuid) : State Cellar := { shared := { service := { ids } } }

/-- The service after some requests, the first one first. -/
def after (s : State Cellar) (visits : List Visit) : State Cellar :=
  visits.foldl (fun s v => (app.call v.1 s v.2).2) s

end Service

/-- A request has stored one record and was answered with its JSON. `store` is what the store has become. -/
inductive Stores (c : Cellar) (r : Incoming) (t : Time) (wire : Response.Wire) : Store → Prop
  /-- A beer without reviews, last of all. -/
  | beer {body : List UInt8} {entry : NewBeer} {b : Beer} (method : r.method = "POST")
      (path : r.target.path = "/v1/beers") (read : r.body.collect = .ok body)
      (decoded : NewBeer.payload.decode body = .ok entry)
      (record : b = { id := c.nextId, entry, score := 0, created := t }) (json : wire.body = bytes b.toJson.render) :
    Stores c r t wire { c.store with beers := c.store.beers ++ [b] }
  /-- A review of the beer that the path names, last of all, and the new mean of the scores of that beer. -/
  | review {body : List UInt8} {entry : NewReview} {before after : List Beer} {b : Beer} {review : Review}
      (method : r.method = "POST") (path : r.target.path = reviewsPath b.id.render)
      (read : r.body.collect = .ok body) (decoded : NewReview.payload.decode body = .ok entry)
      (named : c.store.beers = before ++ b :: after) (others : ∀ o ∈ before ++ after, o.id ≠ b.id)
      (record : review = { id := c.nextId, beer := b.id, entry, created := t })
      (json : wire.body = bytes review.toJson.render) :
    Stores c r t wire
      { beers := before ++
          { b with score := Store.mean ((c.store.reviewsOf b.id).map (·.entry.score) ++ [entry.score]) } :: after
        reviews := c.store.reviews ++ [review] }

/-- A request asks for something that can be stored: a beer, or a review of a stored beer, and the body passes all
checks. -/
inductive Acceptable (s : Store) (r : Incoming) : Prop
  | beer {body : List UInt8} {entry : NewBeer} (method : r.method = "POST") (path : r.target.path = "/v1/beers")
      (read : r.body.collect = .ok body) (decoded : NewBeer.payload.decode body = .ok entry)
  | review {body : List UInt8} {entry : NewReview} {b : Beer} (stored : b ∈ s.beers) (method : r.method = "POST")
      (path : r.target.path = reviewsPath b.id.render) (read : r.body.collect = .ok body)
      (decoded : NewReview.payload.decode body = .ok entry)

/-- What a request does to the service, and how it is answered. -/
inductive Exchange (c : Cellar) (r : Incoming) (t : Time) (wire : Response.Wire) : Cellar → Prop
  | stored {store : Store} : wire.status = .created → Stores c r t wire store →
    Exchange c r t wire { c with store, given := c.given + 1 }
  | kept : wire.status ≠ .created → wire.status.code < 500 → ¬Acceptable c.store r → Exchange c r t wire c

/-! ## One request -/

section
variable {c c' : Cellar} {r : Incoming} {t : Time} {wire : Response.Wire} {o : Operation} {req : Request}

theorem kept_of_mem (statuses : List Status) (h : wire.status ∈ statuses)
    (all : statuses.all fun s => s ≠ .created ∧ s.code < 500) (vain : ¬Acceptable c.store r) :
    Exchange c r t wire c := by
  have := of_decide_eq_true (List.all_eq_true.mp all _ h)
  exact .kept this.1 this.2 vain

/-- A request finds what is looked up for it, once its body has been read. -/
theorem finds_of_lookup {m : Method} {params : List (String × String)} {body : List UInt8}
    (method : r.method = m.name) (found : table.lookup m r.target.path = .found o params)
    (read : r.body.collect = .ok body) :
    App.Finds table r o { method := m, target := r.target, headers := r.headers, body, params } :=
  ⟨by rw [method]; exact Method.ofName?_name m, found, read, rfl, rfl, rfl⟩

/-- What is acceptable finds an operation that asks for a record, and is not refused. -/
theorem Acceptable.finds (acceptable : Acceptable c.store r) :
    ∃ o req, App.Finds table r o req ∧ ∀ ctx, ¬Vain c ctx req o := by
  cases acceptable with
  | beer method path read decoded =>
    refine ⟨_, _, finds_of_lookup (m := .post) method (path ▸ table_create) read, fun ctx vain => ?_⟩
    obtain ⟨refusal, serves⟩ := vain _ (.beer decoded)
    cases serves with
    | invalidBeer invalid => exact invalid (valid_of_decode decoded)
  | @review body entry b stored method path read decoded =>
    refine ⟨_, _, finds_of_lookup (m := .post) method (path ▸ table_createReview b.id) read, fun ctx vain => ?_⟩
    obtain ⟨refusal, serves⟩ := vain _ (.review decoded)
    have serves : c.store.Serves (.addReview c.nextId b.id.render entry ctx.arrived) (.error refusal) c.store := serves
    generalize written : b.id.render = text at serves
    cases serves with
    | invalidId malformed =>
      rw [← written, Uuid.parse?_render] at malformed
      cases malformed
    | invalidReview _ invalid => exact invalid (valid_of_decode decoded)
    | unknown _ _ unknown => exact unknown b stored written

theorem not_acceptable {ctx : Context} (finds : App.Finds table r o req) (vain : Vain c ctx req o) :
    ¬Acceptable c.store r := by
  intro acceptable
  obtain ⟨o', req', finds', accepted⟩ := acceptable.finds
  obtain ⟨rfl, rfl⟩ := finds.unique finds'
  exact accepted ctx vain

theorem response_rejected {e : Failure} (h : Rejects e.status) :
    (App.Ending.ofResult (.error e)).response.status = e.status := by
  have running : e.isShutdown = false := by
    cases e with
    | shutdown reason => rcases h with h | h <;> cases h
    | _ => rfl
  simp only [App.Ending.ofResult, running]
  rfl

/-- What an operation asks of the store, it asks for what the request says. -/
theorem stores_of_asks {ctx : Context} (finds : App.Finds table r o req) {call : Call} {record : Record}
    {store : Store} (asks : Asks ctx req c.nextId o call) (serves : c.store.Serves call (.ok record) store)
    (json : wire.body = bytes record.toJson.render) : Stores c r ctx.arrived wire store := by
  obtain ⟨method, hmatches, -⟩ := finds_operation finds
  cases asks with
  | beer decoded =>
    cases serves with
    | beer valid => exact .beer method (path_create hmatches) finds.body decoded rfl json
  | review decoded =>
    have path := path_createReview finds
    generalize Service.idOf req = id at serves path
    cases serves with
    | review valid named others => exact .review method path finds.body decoded named others rfl json

theorem exchange_of_comes {ctx : Context} (finds : App.Finds table r o req) {result : Result}
    (comes : Comes c ctx req o result c') (status : wire.status = (App.Ending.ofResult result).response.status)
    (body : wire.body = (App.Ending.ofResult result).response.body) : Exchange c r ctx.arrived wire c' := by
  cases comes with
  | stored asks serves => exact .stored status (stores_of_asks finds asks serves body)
  | answered vain answers =>
    refine kept_of_mem [.ok, .noContent] ?_ (by decide) (not_acceptable finds vain)
    rw [status]
    rcases answers with h | h <;> simp [App.Ending.ofResult, App.Ending.response, h]
  | rejected vain rejects =>
    refine kept_of_mem [.badRequest, .notFound] ?_ (by decide) (not_acceptable finds vain)
    rw [status, response_rejected rejects]
    rcases rejects with h | h <;> simp [h]

/-- Every request is answered, and either it has stored one record or the service is as it was. No panic is counted. -/
theorem call_exchange {s : State Cellar} (distinct : (s.shared.service.store.beers.map (·.id.render)).Nodup)
    (r : Incoming) (t : Time) : ∃ wire, (Service.app.call r s t).1.outcome = .answered wire ∧
      Exchange s.shared.service r t wire (Service.app.call r s t).2.shared.service ∧
      (Service.app.call r s t).2.shared.counters.get Counters.panics = s.shared.counters.get Counters.panics := by
  by_cases found : ∃ o req, App.Finds table r o req
  · obtain ⟨o, req, finds⟩ := found
    have returns : (o.layered ⟨Context.traceOf s.contexts, t⟩ req).Returns s.shared.service _ :=
      returns_within (returns_operation _ req distinct o) [.logger, .errors, .metrics, .panics]
    obtain ⟨wire, result, answered, ⟨inner, comes, same⟩, status, body, panics⟩ :=
      (finds.reaches app_routes).call_returns returns
    rw [same] at status body
    exact ⟨wire, answered, exchange_of_comes finds comes status body, panics⟩
  · have lost : ∀ o req, ¬App.Finds table r o req := fun o req finds => found ⟨o, req, finds⟩
    obtain ⟨wire, log, answered, status, shared⟩ := App.call_lost (s := s) (t := t) app_routes lost
    refine ⟨wire, answered, ?_, by rw [shared]⟩
    rw [shared]
    refine kept_of_mem _ status (by decide) fun acceptable => ?_
    obtain ⟨o, req, finds, -⟩ := acceptable.finds
    exact lost o req finds

theorem call_response {s : State Cellar} {m : Method} {params : List (String × String)} {body : List UInt8}
    {res : Response} (method : r.method = m.name) (found : table.lookup m r.target.path = .found o params)
    (read : r.body.collect = .ok body)
    (returns : ∀ ctx, (o.endpoint.handler ctx
      { method := m, target := r.target, headers := r.headers, body, params }).Returns s.shared.service
        fun result _ => result = .ok res) (t : Time) :
    ∃ wire, (Service.app.call r s t).1.outcome = .answered wire ∧ wire.status = res.status ∧ wire.body = res.body := by
  have finds := finds_of_lookup method found read
  obtain ⟨wire, result, answered, ⟨inner, shown, same⟩, status, body, -⟩ := (finds.reaches app_routes).call_returns
    (returns_within (returns ⟨Context.traceOf s.contexts, t⟩) [.logger, .errors, .metrics, .panics])
  rw [same, shown] at status body
  exact ⟨wire, answered, status, body⟩

/-- A beer that is stored is shown under its identifier. -/
theorem call_showBeer {s : State Cellar} {b : Beer}
    (distinct : (s.shared.service.store.beers.map (·.id.render)).Nodup) (stored : b ∈ s.shared.service.store.beers)
    {g : Incoming} (method : g.method = "GET") (path : g.target.path = beerPath b.id.render) {body : List UInt8}
    (read : g.body.collect = .ok body) (t : Time) : ∃ wire, (Service.app.call g s t).1.outcome = .answered wire ∧
      wire.status = .ok ∧ wire.body = bytes b.toJson.render := by
  have found : table.lookup .get g.target.path = .found .showBeer [("id", b.id.render)] := path ▸ table_showBeer b.id
  obtain ⟨wire, answered, status, body⟩ := call_response (s := s) (m := .get) method found read
    (fun ctx => returns_shown ctx _ distinct stored rfl) t
  exact ⟨wire, answered, status.trans (responseOf_status _ _), body.trans (responseOf_body rfl _)⟩

end

/-! ## The store after a request -/

namespace Stores

variable {c : Cellar} {r : Incoming} {t : Time} {wire : Response.Wire} {store : Store}

theorem ids_perm (stores : Stores c r t wire store) : store.ids.Perm (c.nextId :: c.store.ids) := by
  cases stores with
  | beer _ _ _ _ record =>
    subst record
    simp only [Store.ids, List.map_append, List.append_assoc, List.map_cons, List.map_nil]
    exact List.perm_middle
  | review _ _ _ _ named _ record =>
    subst record
    simp only [Store.ids, named, List.map_append, List.map_cons, List.map_nil, ← List.append_assoc]
    exact List.perm_append_singleton _ _

theorem grows (stores : Stores c r t wire store) : store ≠ c.store := by
  intro same
  have length := stores.ids_perm.length_eq
  rw [same, List.length_cons] at length
  omega

theorem consistent (stores : Stores c r t wire store) (hc : c.store.Consistent) (fresh : c.nextId ∉ c.store.ids) :
    store.Consistent := by
  cases stores with
  | beer _ _ _ decoded record =>
    subst record
    exact hc.addBeer (valid_of_decode decoded) fun mem => fresh (List.mem_append_left _ mem)
  | review _ _ _ decoded named others record =>
    subst record
    exact hc.addReview (valid_of_decode decoded) named others fun mem => fresh (List.mem_append_right _ mem)

end Stores

theorem Stores.acceptable {c : Cellar} {r : Incoming} {t : Time} {wire : Response.Wire} {store : Store}
    (stores : Stores c r t wire store) : Acceptable c.store r := by
  cases stores with
  | beer method path read decoded => exact .beer method path read decoded
  | review method path read decoded named =>
    exact .review (named ▸ List.mem_append_right _ List.mem_cons_self) method path read decoded

/-- The status tells which of the two an exchange is, and so does the request. -/
theorem Exchange.told {c c' : Cellar} {r : Incoming} {t : Time} {wire : Response.Wire}
    (exchange : Exchange c r t wire c') : wire.status.code < 500 ∧
      (wire.status = .created ↔ Stores c r t wire c'.store) ∧ (wire.status = .created ↔ Acceptable c.store r) ∧
      (wire.status ≠ .created → c'.store = c.store) := by
  cases exchange with
  | stored status stores =>
    refine ⟨by rw [status]; decide, ⟨fun _ => stores, fun _ => status⟩, ?_, fun other => absurd status other⟩
    exact ⟨fun _ => stores.acceptable, fun _ => status⟩
  | kept other code vain =>
    refine ⟨code, ⟨fun status => absurd status other, fun stores => absurd rfl stores.grows⟩, ?_, fun _ => rfl⟩
    exact ⟨fun status => absurd status other, fun acceptable => absurd acceptable vain⟩

/-- The beer is stored, with whatever score. -/
def Store.Keeps (s : Store) (b : Beer) : Prop := ∃ score, { b with score } ∈ s.beers

theorem keeps_stores {c : Cellar} {r : Incoming} {t : Time} {wire : Response.Wire} {store : Store} {b : Beer}
    (stores : Stores c r t wire store) (keeps : c.store.Keeps b) : store.Keeps b := by
  obtain ⟨score, stored⟩ := keeps
  cases stores with
  | beer => exact ⟨score, List.mem_append_left _ stored⟩
  | review _ _ _ _ named _ _ _ =>
    rw [named] at stored
    rcases List.mem_append.mp stored with h | h
    · exact ⟨score, List.mem_append_left _ h⟩
    rcases List.mem_cons.mp h with h | h
    · -- the beer itself was reviewed
      subst h
      exact ⟨_, List.mem_append_right _ List.mem_cons_self⟩
    · exact ⟨score, List.mem_append_right _ (List.mem_cons_of_mem _ h)⟩

/-! ## Runs -/

/-- What holds after `n` requests. -/
structure Sound (ids : Nat → Uuid) (n : Nat) (s : State Cellar) : Prop where
  source : s.shared.service.ids = ids
  few : s.shared.service.given ≤ n
  /-- Every identifier that was given out is that of a record. -/
  records : s.shared.service.store.ids.length = s.shared.service.given
  /-- Every identifier in the store was given out. -/
  given : ∀ id ∈ s.shared.service.store.ids, ∃ m < s.shared.service.given, ids m = id
  consistent : s.shared.service.store.Consistent
  /-- No panic was counted. -/
  calm : s.shared.counters.get Counters.panics = 0

def Distinct (ids : Nat → Uuid) (n : Nat) : Prop := ((List.range n).map ids).Nodup

section
variable {ids : Nat → Uuid} {n : Nat} {s : State Cellar}

theorem Distinct.mono {m : Nat} (h : Distinct ids n) (le : m ≤ n) : Distinct ids m :=
  h.sublist ((List.range_sublist.mpr le).map ids)

theorem sound_opened (ids : Nat → Uuid) : Sound ids 0 (Service.opened ids) where
  source := rfl
  few := Nat.le_refl 0
  records := rfl
  given := nofun
  consistent := Store.consistent_empty
  calm := rfl

/-- The identifier that is given out next is in no record. -/
theorem Sound.fresh (sound : Sound ids n s) (distinct : Distinct ids (n + 1)) :
    s.shared.service.nextId ∉ s.shared.service.store.ids := by
  intro mem
  obtain ⟨m, hm, same⟩ := sound.given _ mem
  have few := sound.few
  rw [Cellar.nextId, sound.source] at same
  have := List.inj_on_of_nodup_map distinct (List.mem_range.mpr (by omega)) (List.mem_range.mpr (by omega)) same
  omega

/-- After fewer than `2 ^ 32` requests the reviews of every beer can be counted. -/
theorem Sound.countFits (sound : Sound ids n s) (few : n < UInt32.size) (beer : Uuid) :
    s.shared.service.store.CountFits beer := by
  have count : (s.shared.service.store.reviewsOf beer).length ≤ s.shared.service.store.reviews.length :=
    List.length_filter_le _ _
  have records := sound.records
  have given := sound.few
  simp only [Store.ids, List.length_append, List.length_map] at records
  exact Nat.lt_of_le_of_lt (by omega) few

theorem Sound.exchange (sound : Sound ids n s) (r : Incoming) (t : Time) :
    ∃ wire, (Service.app.call r s t).1.outcome = .answered wire ∧
      Exchange s.shared.service r t wire (Service.app.call r s t).2.shared.service ∧
      (Service.app.call r s t).2.shared.counters.get Counters.panics = 0 := by
  obtain ⟨wire, answered, exchange, panics⟩ := call_exchange sound.consistent.beers_distinct r t
  exact ⟨wire, answered, exchange, panics.trans sound.calm⟩

theorem sound_step (sound : Sound ids n s) (distinct : Distinct ids (n + 1)) (r : Incoming) (t : Time) :
    Sound ids (n + 1) (Service.app.call r s t).2 := by
  obtain ⟨wire, -, exchange, calm⟩ := sound.exchange r t
  generalize (Service.app.call r s t).2 = s' at exchange calm ⊢
  obtain ⟨⟨counters, log, c'⟩, channel, contexts⟩ := s'
  simp only at exchange calm
  have few := sound.few
  cases exchange with
  | stored _ stores =>
    have records := stores.ids_perm.length_eq.trans (congrArg Nat.succ sound.records)
    refine ⟨sound.source, Nat.succ_le_succ few, records, ?_, stores.consistent sound.consistent (sound.fresh distinct),
      calm⟩
    intro id mem
    rcases List.mem_cons.mp (stores.ids_perm.mem_iff.mp mem) with rfl | mem
    · exact ⟨_, Nat.lt_succ_self _, by rw [Cellar.nextId, sound.source]⟩
    · obtain ⟨m, hm, same⟩ := sound.given id mem
      exact ⟨m, Nat.lt_succ_of_lt hm, same⟩
  | kept => exact ⟨sound.source, Nat.le_succ_of_le few, sound.records, sound.given, sound.consistent, calm⟩

theorem keeps_step (sound : Sound ids n s) {b : Beer} (keeps : s.shared.service.store.Keeps b) (r : Incoming)
    (t : Time) : (Service.app.call r s t).2.shared.service.store.Keeps b := by
  obtain ⟨wire, -, exchange, -⟩ := sound.exchange r t
  generalize (Service.app.call r s t).2.shared.service = c' at exchange ⊢
  cases exchange with
  | stored _ stores => exact keeps_stores stores keeps
  | kept => exact keeps

theorem after_cons (s : State Cellar) (v : Visit) (visits : List Visit) :
    Service.after s (v :: visits) = Service.after (Service.app.call v.1 s v.2).2 visits := by
  rw [Service.after, List.foldl_cons, Service.after]

theorem sound_after (visits : List Visit) (sound : Sound ids n s) (distinct : Distinct ids (n + visits.length)) :
    Sound ids (n + visits.length) (Service.after s visits) := by
  induction visits generalizing n s with
  | nil => exact sound
  | cons v visits ih =>
    rw [List.length_cons, ← Nat.add_assoc, Nat.add_right_comm] at distinct ⊢
    rw [after_cons]
    exact ih (sound_step sound (distinct.mono (Nat.le_add_right _ _)) v.1 v.2) distinct

/-- A beer that is stored stays, whatever is asked for. -/
theorem keeps_after (visits : List Visit) (sound : Sound ids n s) (distinct : Distinct ids (n + visits.length))
    {b : Beer} (keeps : s.shared.service.store.Keeps b) :
    (Service.after s visits).shared.service.store.Keeps b := by
  induction visits generalizing n s with
  | nil => exact keeps
  | cons v visits ih =>
    rw [List.length_cons, ← Nat.add_assoc, Nat.add_right_comm] at distinct
    rw [after_cons]
    exact ih (sound_step sound (distinct.mono (Nat.le_add_right _ _)) v.1 v.2) distinct
      (keeps_step sound keeps v.1 v.2)

end

/-- **The beer service over HTTP.** Whatever requests came before from an empty store on, the next one is answered, not
with a fault of the server, and no panic has been counted. The status is 201 just if the request has stored one record,
a beer or a review of the beer that its path names, and the body is the JSON of the record; that is so whenever it asks
for something that can be stored. With any other status the store is as it was, and every beer has the score that it
should. Whatever requests come later, a beer that was stored is shown under its identifier, with the same fields but for
the score. All this where no beer has had more reviews than a word of 32 bits can count. -/
theorem beers_over_http (ids : Nat → Uuid) (before later : List Visit)
    (distinct : Distinct ids (before.length + 1 + later.length)) {s s' : State Cellar} (r : Incoming) (t : Time)
    (hs : s = Service.after (Service.opened ids) before) (hs' : s' = (Service.app.call r s t).2)
    (fits : ∀ b ∈ s'.shared.service.store.beers, s'.shared.service.store.CountFits b.id) :
    ∃ wire, (Service.app.call r s t).1.outcome = .answered wire ∧ wire.status.code < 500 ∧
      s'.shared.counters.get Counters.panics = 0 ∧
      (wire.status = .created ↔ Stores s.shared.service r t wire s'.shared.service.store) ∧
      (wire.status = .created ↔ Acceptable s.shared.service.store r) ∧
      (wire.status ≠ .created → s'.shared.service.store = s.shared.service.store) ∧
      (∀ b ∈ s'.shared.service.store.beers, s'.shared.service.store.Scored b) ∧
      ∀ b ∈ s'.shared.service.store.beers, ∀ g body u, g.method = "GET" → g.target.path = beerPath b.id.render →
        g.body.collect = .ok body → ∃ shown score,
          (Service.app.call g (Service.after s' later) u).1.outcome = .answered shown ∧ shown.status = .ok ∧
          shown.body = bytes (Beer.toJson { b with score }).render := by
  have now : Sound ids before.length s := by
    have sound := sound_after before (sound_opened ids)
    rw [Nat.zero_add, ← hs] at sound
    exact sound (distinct.mono (by omega))
  have next : Sound ids (before.length + 1) s' := hs' ▸ sound_step now (distinct.mono (by omega)) r t
  obtain ⟨wire, answered, exchange, calm⟩ := now.exchange r t
  rw [← hs'] at exchange calm
  obtain ⟨code, created, accepted, other⟩ := exchange.told
  refine ⟨wire, answered, code, calm, created, accepted, other,
    fun b stored => next.consistent.scored b stored (fits b stored), fun b stored g body u method path read => ?_⟩
  obtain ⟨score, kept⟩ := keeps_after later next distinct ⟨b.score, stored⟩
  have sound := sound_after later next distinct
  obtain ⟨shown, answered, status, json⟩ := call_showBeer sound.consistent.beers_distinct kept method path read u
  exact ⟨shown, score, answered, status, json⟩

/-! ## A beer and its review -/

def posting (path : String) (v : Json) : Incoming where
  method := "POST"
  target := .parse path
  body := { chunks := [bytes v.render] }

private def gose : Json := .object
  [("name", .text "Gose"), ("brewery", .text "Leipzig"), ("style", .text "Sour"), ("abv", .nat 5),
   ("short_desc", .text "salty")]

private def praise : Json := .object
  [("user_id", .text (Uuid.fresh 3 0).render), ("score", .nat 4), ("comment", .text "crisp")]

def brewing : Incoming := posting "/v1/beers" gose

def praising : Incoming := posting (reviewsPath (Uuid.fresh 2 0).render) praise

def showing : Incoming where
  target := .parse (beerPath (Uuid.fresh 2 0).render)

private theorem numeral_digit {c : Char} (digit : c.isDigit = true) :
    Json.Numeral [c] { negative := false, whole := [c.toNat - 48], fraction := none, exponent := none } := by
  have digits : Json.Digits [c] [c.toNat - 48] := ⟨by simpa using digit, rfl, by simp⟩
  exact .unsigned (.mk digits (by simp) .none .none)

/-- What has been printed is decoded, if its numbers read back. -/
theorem decode_render {α : Type} {p : Payload α} {v : Json} {a : α} (numbers : ∀ n ∈ v.numbers, n.ReadsBack)
    (shallow : v.depth < Json.Reader.depthLimit) (shape : p.shape v.canonical.stripNulls = .ok a)
    (valid : p.validate a = []) : p.decode (bytes v.render) = .ok a := by
  simp only [Payload.decode, Json.parse_render numbers shallow, shape, valid]

private theorem brewing_acceptable (s : Store) : Acceptable s brewing := by
  have five : (Json.Number.whole 5).ReadsBack := ⟨_, numeral_digit (c := '5') rfl, rfl⟩
  have numbers : ∀ n ∈ gose.numbers, n.ReadsBack := List.forall_mem_singleton.mpr five
  have decoded : ∃ entry, NewBeer.payload.decode (bytes gose.render) = .ok entry :=
    ⟨_, decode_render numbers (by decide) (by rfl) (by rfl)⟩
  obtain ⟨entry, decoded⟩ := decoded
  exact .beer rfl (by decide +kernel) rfl decoded

private theorem praising_acceptable {s : Store} {b : Beer} (stored : b ∈ s.beers) (id : b.id = .fresh 2 0) :
    Acceptable s praising := by
  have four : (Json.Number.whole 4).ReadsBack := ⟨_, numeral_digit (c := '4') rfl, rfl⟩
  have numbers : ∀ n ∈ praise.numbers, n.ReadsBack := List.forall_mem_singleton.mpr four
  have decoded : ∃ entry, NewReview.payload.decode (bytes praise.render) = .ok entry :=
    ⟨_, decode_render numbers (by decide) (by rfl) (by rfl)⟩
  obtain ⟨entry, decoded⟩ := decoded
  exact .review stored rfl (by rw [id]; decide +kernel) rfl decoded

private theorem stores_brewing {c : Cellar} {t : Time} {wire : Response.Wire} {store : Store}
    (stores : Stores c brewing t wire store) (empty : c.store = {}) :
    ∃ b, b.id = c.nextId ∧ store = ⟨[b], []⟩ ∧ wire.body = bytes b.toJson.render := by
  cases stores with
  | @beer _ _ b _ _ _ _ record json => exact ⟨b, by rw [record], by rw [empty]; rfl, json⟩
  | review _ _ _ _ named =>
    rw [empty] at named
    simp at named

private theorem stores_praising {c : Cellar} {t : Time} {wire : Response.Wire} {store : Store} {b : Beer}
    (stores : Stores c praising t wire store) (one : c.store = ⟨[b], []⟩) :
    ∃ score r, store = ⟨[{ b with score }], [r]⟩ ∧ wire.body = bytes r.toJson.render := by
  cases stores with
  | beer _ path =>
    have other : praising.target.path ≠ "/v1/beers" := by decide +kernel
    exact absurd path other
  | @review _ _ before after b' r _ _ _ _ named _ _ json =>
    rw [one] at named
    obtain ⟨rfl, rfl, rfl⟩ : before = [] ∧ b' = b ∧ after = [] := by
      cases before with
      | nil => simpa [eq_comm] using named
      | cons b₀ before => simp at named
    exact ⟨_, r, by rw [one]; rfl, json⟩

/-- A beer is stored, then a review of it, and after one more listing the beer is shown. -/
theorem beers_over_http_praised : Distinct (Uuid.fresh 2) 3 ∧
    ∃ s₁ s₂ w₁ w₂ b score r, s₁ = (Service.app.call brewing (Service.opened (Uuid.fresh 2)) .epoch).2 ∧
      s₂ = (Service.app.call praising s₁ .epoch).2 ∧
      (∀ b ∈ s₂.shared.service.store.beers, s₂.shared.service.store.CountFits b.id) ∧
      (Service.app.call brewing (Service.opened (Uuid.fresh 2)) .epoch).1.outcome = .answered w₁ ∧
      w₁.status = .created ∧ w₁.body = bytes b.toJson.render ∧ s₁.shared.service.store = ⟨[b], []⟩ ∧
      (Service.app.call praising s₁ .epoch).1.outcome = .answered w₂ ∧
      w₂.status = .created ∧ w₂.body = bytes r.toJson.render ∧
      s₂.shared.service.store = ⟨[{ b with score }], [r]⟩ ∧ s₂.shared.service.store.Scored { b with score } ∧
      s₂.shared.counters.get Counters.panics = 0 ∧
      ∃ shown score', (Service.app.call showing (Service.after s₂ [({ target := .parse "/v1/beers" }, .epoch)])
          .epoch).1.outcome = .answered shown ∧ shown.status = .ok ∧
        shown.body = bytes (Beer.toJson { b with score := score' }).render := by
  have distinct : Distinct (Uuid.fresh 2) 3 := by
    unfold Distinct
    decide +kernel
  obtain ⟨s₁, hs₁⟩ : ∃ s₁, s₁ = (Service.app.call brewing (Service.opened (Uuid.fresh 2)) .epoch).2 := ⟨_, rfl⟩
  obtain ⟨s₂, hs₂⟩ : ∃ s₂, s₂ = (Service.app.call praising s₁ .epoch).2 := ⟨_, rfl⟩
  have sound₁ : Sound (Uuid.fresh 2) 1 s₁ := hs₁ ▸ sound_step (sound_opened _) (distinct.mono (by decide)) _ _
  have sound₂ : Sound (Uuid.fresh 2) 2 s₂ := hs₂ ▸ sound_step sound₁ (distinct.mono (by decide)) _ _
  have fits₂ : ∀ b ∈ s₂.shared.service.store.beers, s₂.shared.service.store.CountFits b.id :=
    fun b _ => sound₂.countFits (by decide) b.id
  have after₁ : s₁ = Service.after (Service.opened (Uuid.fresh 2)) [(brewing, .epoch)] := by
    rw [hs₁, after_cons, Service.after, List.foldl_nil]
  obtain ⟨w₁, answered₁, -, -, created₁, accepted₁, -⟩ := beers_over_http (s := Service.opened (Uuid.fresh 2))
    (Uuid.fresh 2) [] [] (distinct.mono (by decide)) brewing .epoch rfl hs₁
    fun b _ => sound₁.countFits (by decide) b.id
  have status₁ := accepted₁.mpr (brewing_acceptable _)
  obtain ⟨b, id, store₁, json₁⟩ := stores_brewing (created₁.mp status₁) rfl
  obtain ⟨w₂, answered₂, -, calm, created₂, accepted₂, -, scored, shows⟩ := beers_over_http (Uuid.fresh 2)
    [(brewing, .epoch)] [({ target := .parse "/v1/beers" }, .epoch)] distinct praising .epoch after₁ hs₂ fits₂
  have status₂ := accepted₂.mpr (praising_acceptable (b := b) (by simp [store₁]) id)
  obtain ⟨score, r, store₂, json₂⟩ := stores_praising (created₂.mp status₂) store₁
  have stored : { b with score } ∈ s₂.shared.service.store.beers := by simp [store₂]
  have path : showing.target.path = beerPath b.id.render := by
    rw [id]
    decide +kernel
  obtain ⟨shown, score', answered, status, json⟩ := shows _ stored showing [] .epoch rfl path rfl
  exact ⟨distinct, s₁, s₂, w₁, w₂, b, score, r, hs₁, hs₂, fits₂, answered₁, status₁, json₁, store₁, answered₂, status₂,
    json₂, store₂, scored _ stored, calm, shown, score', answered, status, json⟩

end JsonService.Beers
