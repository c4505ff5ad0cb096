import JsonService.Proofs.Beers.Consistency
import JsonService.Proofs.Beers.Operations
import JsonService.Proofs.Layers.Returns

/-!
# What the handlers of the beer service come to

Every handler of the service returns, whatever the request and the state of the service: it has stored one record and
responds with it, or it stores nothing and responds with something else or fails on account of the request.

**Results.**
* `rejects_decode`, `rejects_ofRequest`, `rejects_serves`: what is wrong with a request is answered as its fault.
* `returns_operation`: what each operation comes to, in one of these three ways.
* `returns_shown`: a stored beer is shown as it is stored.
-/
namespace JsonService.Beers

def Record.toJson : Record → Json
  | .beer b => b.toJson
  | .review r => r.toJson

def Record.response (record : Record) : Response :=
  (({} : Response.Builder).withStatus .created).json (Text.Utf8.bytes record.toJson.render)

/-- The status of an answer that says that something is wrong with the request. -/
def Rejects (status : Status) : Prop := status = .badRequest ∨ status = .notFound

/-- What an operation asks of the store for a request. -/
inductive Asks (ctx : Context) (req : Request) (id : Uuid) : Operation → Call → Prop
  | beer {entry : NewBeer} : NewBeer.payload.decode req.body = .ok entry →
    Asks ctx req id .create (.addBeer id entry ctx.arrived)
  | review {entry : NewReview} : NewReview.payload.decode req.body = .ok entry →
    Asks ctx req id .createReview (.addReview id (Service.idOf req) entry ctx.arrived)

/-- Whatever the operation asks of the store is refused. -/
def Vain (c : Cellar) (ctx : Context) (req : Request) (o : Operation) : Prop :=
  ∀ call, Asks ctx req c.nextId o call → ∃ refusal, c.store.Serves call (.error refusal) c.store

/-- What an operation comes to, and what of the service it leaves. -/
inductive Comes (c : Cellar) (ctx : Context) (req : Request) (o : Operation) : Result → Cellar → Prop
  | stored {call : Call} {record : Record} {store : Store} : Asks ctx req c.nextId o call →
    c.store.Serves call (.ok record) store →
    Comes c ctx req o (.ok record.response) { c with store, given := c.given + 1 }
  | answered {res : Response} : Vain c ctx req o → res.status = .ok ∨ res.status = .noContent →
    Comes c ctx req o (.ok res) c
  | rejected {e : Failure} : Vain c ctx req o → Rejects e.status → Comes c ctx req o (.error e) c

/-! ## What is wrong with a request -/

theorem rejects_validation {fields : FieldErrors} (h : fields ≠ []) : Rejects (Failure.validation fields).status := by
  cases fields with
  | nil => exact absurd rfl h
  | cons f fs => exact .inl rfl

theorem rejects_decode {α : Type} {p : Payload α} {body : List UInt8} {e : Failure}
    (h : p.decode body = .error e) : Rejects e.status := by
  unfold Payload.decode at h
  split at h
  · cases h
    exact .inl rfl
  split at h
  · cases h
    exact .inl rfl
  split at h
  · cases h
  · next invalid =>
    cases h
    exact rejects_validation invalid

theorem valid_of_decode {α : Type} {p : Payload α} {body : List UInt8} {a : α} (h : p.decode body = .ok a) :
    p.validate a = [] := by
  unfold Payload.decode at h
  split at h
  · cases h
  split at h
  · cases h
  split at h
  · cases h
    assumption
  · cases h

theorem rejects_parameter {req : Request} {name : String} {default : Nat} {e : Failure}
    (h : Page.parameter req name default = .error e) : Rejects e.status := by
  unfold Page.parameter at h
  split at h
  · cases h
  split at h
  · cases h
  split at h
  · cases h
  · cases h
    exact .inl rfl

theorem rejects_ofRequest {req : Request} {e : Failure} (h : Page.ofRequest req = .error e) : Rejects e.status := by
  simp only [Page.ofRequest, bind, Except.bind] at h
  split at h
  · next hnumber =>
    cases h
    exact rejects_parameter hnumber
  split at h
  · cases h
    exact .inl rfl
  split at h
  · next hsize =>
    cases h
    exact rejects_parameter hsize
  · cases h

/-- What the store refuses is the fault of the request. -/
theorem rejects_serves {s s' : Store} {call : Call} {r : Refusal} (h : s.Serves call (.error r) s') :
    Rejects r.toFailure.status := by
  cases h with
  | invalidBeer invalid => exact rejects_validation invalid
  | invalidReview _ invalid => exact rejects_validation invalid
  | invalidId => exact .inl rfl
  | unknown => exact .inr rfl

theorem rejects_find {s : Store} {id : String} {r : Refusal} (h : s.find id = .error r) :
    Rejects r.toFailure.status := by
  unfold Store.find at h
  split at h
  · cases h
    exact .inl rfl
  split at h
  · cases h
  · cases h
    exact .inr rfl

theorem rejects_listReviews {s : Store} {id : String} {page : Page} {r : Refusal}
    (h : s.listReviews id page = .error r) : Rejects r.toFailure.status := by
  simp only [Store.listReviews, bind, Except.bind] at h
  split at h
  · next hfind =>
    cases h
    exact rejects_find hfind
  · cases h

/-! ## Handlers -/

section
variable {ctx : Context} {req : Request} {c : Cellar} {o : Operation}

theorem asks_unique {id : Uuid} {call call' : Call} (h : Asks ctx req id o call) (h' : Asks ctx req id o call') :
    call = call' := by
  cases h with
  | beer decoded =>
    cases h' with
    | beer decoded' => rw [Except.ok.inj (decoded.symm.trans decoded')]
  | review decoded =>
    cases h' with
    | review decoded' => rw [Except.ok.inj (decoded.symm.trans decoded')]

theorem vain_of_looking (h : o ≠ .create ∧ o ≠ .createReview) : Vain c ctx req o := by
  intro call asks
  cases asks with
  | beer => exact absurd rfl h.1
  | review => exact absurd rfl h.2

theorem returns_rejected {e : Failure} (vain : Vain c ctx req o) (h : Rejects e.status) :
    (Task.done (.error e)).Returns c (Comes c ctx req o) := returns_done (.rejected vain h)

theorem returns_ok (vain : Vain c ctx req o) (v : Json) : (respond (.ok v) .ok).Returns c (Comes c ctx req o) :=
  returns_respond (.answered vain (.inl (responseOf_status v .ok)))

theorem returns_respondList {α : Type} (vain : Vain c ctx req o) (toJson : α → Json) (items : List α) :
    (Service.respondList toJson items).Returns c (Comes c ctx req o) := by
  unfold Service.respondList
  split
  · exact returns_respond (.answered vain (.inr (responseOf_status .null .noContent)))
  · exact returns_ok vain _

theorem returns_stored {α : Type} (record : α → Record) {toJson : α → Json} (json : ∀ a, (record a).toJson = toJson a)
    {f : Cellar → Except Refusal (α × Store)} {call : Call} (asks : Asks ctx req c.nextId o call)
    (distinct : (c.store.beers.map (·.id.render)).Nodup) (serve : c.store.serve call = c.store.settle record (f c)) :
    ((Task.update fun c => c.keep (f c)).bind (Service.respondWith toJson .created)).Returns c (Comes c ctx req o) := by
  have serves := Store.serves_serve distinct call
  rw [serve] at serves
  refine returns_update ?_
  cases hf : f c with
  | error r =>
    rw [hf] at serves
    have vain : Vain c ctx req o := fun call' asks' => ⟨r, asks_unique asks asks' ▸ serves⟩
    exact returns_rejected vain (rejects_serves serves)
  | ok stored =>
    obtain ⟨a, store⟩ := stored
    rw [hf] at serves
    refine returns_respond ?_
    rw [← json a]
    exact .stored asks serves

theorem returns_create (distinct : (c.store.beers.map (·.id.render)).Nodup) :
    (Service.create ctx req).Returns c (Comes c ctx req .create) := by
  simp only [Service.create]
  cases hdecode : NewBeer.payload.decode req.body with
  | error e =>
    have vain : Vain c ctx req .create := by
      intro call asks
      cases asks with
      | beer decoded => rw [hdecode] at decoded; cases decoded
    exact returns_rejected vain (rejects_decode hdecode)
  | ok entry => exact returns_stored .beer (fun _ => rfl) (.beer hdecode) distinct rfl

theorem returns_createReview (distinct : (c.store.beers.map (·.id.render)).Nodup) :
    (Service.createReview ctx req).Returns c (Comes c ctx req .createReview) := by
  simp only [Service.createReview]
  cases hdecode : NewReview.payload.decode req.body with
  | error e =>
    have vain : Vain c ctx req .createReview := by
      intro call asks
      cases asks with
      | review decoded => rw [hdecode] at decoded; cases decoded
    exact returns_rejected vain (rejects_decode hdecode)
  | ok entry => exact returns_stored .review (fun _ => rfl) (.review hdecode) distinct rfl

theorem returns_list : (Service.list ctx req).Returns c (Comes c ctx req .list) := by
  have vain : Vain c ctx req .list := vain_of_looking (by decide)
  simp only [Service.list]
  cases hpage : Page.ofRequest req with
  | error e => exact returns_rejected vain (rejects_ofRequest hpage)
  | ok page => exact returns_look fun v _ => returns_respondList vain _ _

theorem returns_listReviews : (Service.listReviews ctx req).Returns c (Comes c ctx req .listReviews) := by
  have vain : Vain c ctx req .listReviews := vain_of_looking (by decide)
  simp only [Service.listReviews]
  cases hpage : Page.ofRequest req with
  | error e => exact returns_rejected vain (rejects_ofRequest hpage)
  | ok page =>
    refine returns_look fun v _ => ?_
    cases hlist : v.service.store.listReviews (Service.idOf req) page with
    | error r => exact returns_rejected vain (rejects_listReviews hlist)
    | ok reviews => exact returns_respondList vain _ _

theorem returns_showBeer : (Service.showBeer ctx req).Returns c (Comes c ctx req .showBeer) := by
  have vain : Vain c ctx req .showBeer := vain_of_looking (by decide)
  refine returns_look fun v _ => ?_
  cases hfind : v.service.store.find (Service.idOf req) with
  | error r => exact returns_rejected vain (rejects_find hfind)
  | ok b => exact returns_ok vain _

variable (ctx req)

/-- What each operation comes to. -/
theorem returns_operation (distinct : (c.store.beers.map (·.id.render)).Nodup) (o : Operation) :
    (o.endpoint.handler ctx req).Returns c (Comes c ctx req o) := by
  cases o with
  | liveness => exact returns_ok (vain_of_looking (by decide)) _
  | readiness => exact returns_ok (vain_of_looking (by decide)) _
  | counters => exact returns_look fun v _ => returns_ok (vain_of_looking (by decide)) _
  | list => exact returns_list
  | create => exact returns_create distinct
  | showBeer => exact returns_showBeer
  | createReview => exact returns_createReview distinct
  | listReviews => exact returns_listReviews

/-- A stored beer is shown as it is stored. -/
theorem returns_shown {b : Beer} (distinct : (c.store.beers.map (·.id.render)).Nodup) (stored : b ∈ c.store.beers)
    (named : Service.idOf req = b.id.render) :
    (Service.showBeer ctx req).Returns c fun result _ => result = .ok (responseOf b.toJson .ok) := by
  refine returns_look fun v hv => ?_
  rw [named, hv, Store.find_stored distinct stored]
  exact returns_respond rfl

end

end JsonService.Beers
