import JsonService.Beers.Store
import JsonService.Proofs.Text.Identifiers
import Mathlib.Data.List.Induction
import Mathlib.Data.List.Nodup

/-!
# What the store of beers keeps

Calls that store beers and reviews come from many requests at once. A call checks its own arguments, draws its
identifier, waits for the lock of the store, and does the rest while it holds it. Here any number of calls begin
and are served in any order.

**Sessions.** A `Session` is the store, the calls that have begun and wait for the lock, and what became of those
that were served. What a call does before it has the lock depends on its arguments alone, so it is taken together
with what it does under the lock; only its identifier is fixed when it begins. Identifiers are fresh: no two calls
of a run have the same.

**Counting.** The reviews of a beer are counted in a word of 32 bits, so a score is the mean of the reviews only while
there are fewer than 2 ^ 32 of them (`CountFits`, `Room`). A call that stores the review for which the word has no room
would come to a score by a count of zero, or to an arithmetic fault, as the program was built; nothing is said of it.

**Results.**
* `tally_eq`, `isMean_mean`: the sum and the count are those of the scores, so while there is room the mean is.
* `serves_serve`: what a call comes to and does to a store whose beers have identifiers of their own. It stores
  one record at the end, and a review brings the score of its beer up to date, or it is refused and the store
  stays as it is.
* `Consistent.serve`: a call keeps the store consistent: identifiers are distinct, every review is of a stored
  beer, every score is the mean of those of the reviews of the beer, and every record has passed its checks.
* `ids_step`: no identifier comes up twice, whether its call waits or its record is stored.
* `store_consistent`: so the store is consistent in every reachable session, and while there is room each call that
  waits does what it should.
-/
namespace JsonService.Beers

/-- A call to the store, with the identifier that its record gets. -/
inductive Call where
  | addBeer (id : Uuid) (entry : NewBeer) (now : Time)
  | addReview (id : Uuid) (beer : String) (entry : NewReview) (now : Time)

inductive Record where
  | beer (b : Beer)
  | review (r : Review)

def Call.id : Call → Uuid
  | .addBeer id _ _ => id
  | .addReview id _ _ _ => id

/-- The text by which a call names a beer. -/
def Call.beer? : Call → Option String
  | .addBeer .. => none
  | .addReview _ beer _ _ => some beer

namespace Store

/-- What became of an operation, and the store after it: one that is refused leaves the store as it is. -/
def settle (s : Store) (record : α → Record) : Except Refusal (α × Store) → Except Refusal Record × Store
  | .ok (a, s') => (.ok (record a), s')
  | .error r => (.error r, s)

/-- What a call comes to, and the store after it. -/
def serve (s : Store) : Call → Except Refusal Record × Store
  | .addBeer id entry now => s.settle .beer (s.addBeer id entry now)
  | .addReview id beer entry now => s.settle .review (s.addReview id beer entry now)

/-- The mean of some scores is their sum, from left to right, divided by their number, which has to fit in a word. -/
def IsMean (scores : List Float32) (x : Float32) : Prop :=
  ∃ count : UInt32, count.toNat = scores.length ∧ x = scores.foldl (· + ·) 0 / count.toFloat32

/-- A beer has the score that it should: zero without reviews, else the mean of their scores in the order in which they
are stored. -/
structure Scored (s : Store) (b : Beer) : Prop where
  unreviewed : s.reviewsOf b.id = [] → b.score = 0
  reviewed : s.reviewsOf b.id ≠ [] → IsMean ((s.reviewsOf b.id).map (·.entry.score)) b.score

/-- The reviews of a beer can be counted in a word of 32 bits. -/
def CountFits (s : Store) (beer : Uuid) : Prop := (s.reviewsOf beer).length < UInt32.size

/-- There is room for one more review of the beer that a call names. -/
def Room (s : Store) (c : Call) : Prop :=
  ∀ b ∈ s.beers, c.beer? = some b.id.render → (s.reviewsOf b.id).length + 1 < UInt32.size

/-- What holds of every store that is reached. -/
structure Consistent (s : Store) : Prop where
  beers_distinct : (s.beers.map (·.id.render)).Nodup
  reviews_distinct : (s.reviews.map (·.id.render)).Nodup
  /-- Every review is of exactly one stored beer. -/
  reviewed : ∀ r ∈ s.reviews, (s.beers.map (·.id)).count r.beer = 1
  scored : ∀ b ∈ s.beers, s.CountFits b.id → s.Scored b
  beers_valid : ∀ b ∈ s.beers, b.entry.validate = []
  reviews_valid : ∀ r ∈ s.reviews, r.entry.validate = []

/-- What a call comes to and what store it leaves. -/
inductive Serves (s : Store) : Call → Except Refusal Record → Store → Prop
  | beer {id : Uuid} {entry : NewBeer} {now : Time} (valid : entry.validate = []) :
    Serves s (.addBeer id entry now) (.ok (.beer { id, entry, score := 0, created := now }))
      { s with beers := s.beers ++ [{ id, entry, score := 0, created := now }] }
  | invalidBeer {id : Uuid} {entry : NewBeer} {now : Time} (invalid : entry.validate ≠ []) :
    Serves s (.addBeer id entry now) (.error (.invalid entry.validate)) s
  /-- The scores of all beers but one stay. -/
  | review {id : Uuid} {entry : NewReview} {now : Time} {before after : List Beer} {b : Beer}
      (valid : entry.validate = []) (beers : s.beers = before ++ b :: after)
      (others : ∀ c ∈ before ++ after, c.id ≠ b.id) :
    Serves s (.addReview id b.id.render entry now) (.ok (.review { id, beer := b.id, entry, created := now }))
      { beers := before ++ { b with score := mean (((s.reviewsOf b.id).map (·.entry.score)) ++ [entry.score]) } ::
          after
        reviews := s.reviews ++ [{ id, beer := b.id, entry, created := now }] }
  | invalidId {id : Uuid} {text : String} {entry : NewReview} {now : Time} (malformed : Uuid.parse? text = none) :
    Serves s (.addReview id text entry now) (.error .invalidId) s
  | invalidReview {id : Uuid} {text : String} {entry : NewReview} {now : Time}
      (wellFormed : Uuid.parse? text ≠ none) (invalid : entry.validate ≠ []) :
    Serves s (.addReview id text entry now) (.error (.invalid entry.validate)) s
  | unknown {id : Uuid} {text : String} {entry : NewReview} {now : Time} (wellFormed : Uuid.parse? text ≠ none)
      (valid : entry.validate = []) (unknown : ∀ b ∈ s.beers, b.id.render ≠ text) :
    Serves s (.addReview id text entry now) (.error .notFound) s

end Store

/-! ## One call -/

namespace Store

variable {s : Store}

theorem accept_nil : accept [] = .ok () := rfl

theorem accept_error {fields : FieldErrors} (h : fields ≠ []) : accept fields = .error (.invalid fields) := by
  cases fields with
  | nil => exact absurd rfl h
  | cons f fs => rfl

theorem serve_addBeer (s : Store) (id : Uuid) (entry : NewBeer) (now : Time) :
    Serves s (.addBeer id entry now) (s.serve (.addBeer id entry now)).1 (s.serve (.addBeer id entry now)).2 := by
  by_cases valid : entry.validate = []
  · have h : s.addBeer id entry now =
        .ok ({ id, entry, created := now }, { s with beers := s.beers ++ [{ id, entry, created := now }] }) := by
      simp only [addBeer, valid, accept_nil]
      rfl
    simp only [serve, h, settle]
    exact .beer valid
  · have h : s.addBeer id entry now = .error (.invalid entry.validate) := by
      simp only [addBeer, accept_error valid]
      rfl
    simp only [serve, h, settle]
    exact .invalidBeer valid

/-- Where a beer is found: its identifier is written so, and no beer before it is of that identifier. -/
theorem find?_split {text : String} {b : Beer} (h : s.beers.find? (·.id.render = text) = some b) :
    b.id.render = text ∧ ∃ before after, s.beers = before ++ b :: after := by
  obtain ⟨found, before, after, hs, -⟩ := List.find?_eq_some_iff_append.mp h
  exact ⟨by simpa using found, before, after, hs⟩

theorem find_stored (hd : (s.beers.map (·.id.render)).Nodup) {b : Beer} (stored : b ∈ s.beers) :
    s.find b.id.render = .ok b := by
  have first : s.beers.find? (·.id.render = b.id.render) = some b := by
    cases hfind : s.beers.find? (·.id.render = b.id.render) with
    | none => exact absurd (decide_eq_true rfl) (List.find?_eq_none.mp hfind b stored)
    | some b' =>
      have same : b'.id.render = b.id.render := by simpa using List.find?_some hfind
      rw [List.inj_on_of_nodup_map hd (List.mem_of_find?_eq_some hfind) stored same]
  simp only [find, Uuid.parse?_render, first]
  rfl

theorem others_differ {before after : List Beer} {b : Beer} (hd : (s.beers.map (·.id.render)).Nodup)
    (hs : s.beers = before ++ b :: after) : ∀ c ∈ before ++ after, c.id ≠ b.id := by
  intro c hc heq
  rw [hs, (List.perm_middle.map _).nodup_iff, List.map_cons, List.nodup_cons] at hd
  exact hd.1 (List.mem_map.mpr ⟨c, hc, by rw [heq]⟩)

theorem reviewsOf_append (s : Store) (r : Review) (beer : Uuid) :
    ({ s with reviews := s.reviews ++ [r] } : Store).reviewsOf beer =
      s.reviewsOf beer ++ if r.beer = beer then [r] else [] := by
  simp only [reviewsOf, List.filter_append, List.filter_cons, List.filter_nil, decide_eq_true_eq]

/-- One beer is rescored, if only one has its identifier. -/
theorem rescore_eq {before after : List Beer} {b : Beer} (hs : s.beers = before ++ b :: after)
    (others : ∀ c ∈ before ++ after, c.id ≠ b.id) :
    s.rescore b.id = { s with beers := before ++
      { b with score := mean ((s.reviewsOf b.id).map (·.entry.score)) } :: after } := by
  have stays : ∀ cs : List Beer, (∀ c ∈ cs, c.id ≠ b.id) → (cs.map fun c =>
      if c.id = b.id then { c with score := mean ((s.reviewsOf b.id).map (·.entry.score)) } else c) = cs := by
    intro cs hcs
    exact (List.map_congr_left fun c hc => if_neg (hcs c hc)).trans (List.map_id cs)
  simp only [rescore, hs, List.map_append, List.map_cons, if_true]
  rw [stays before fun c hc => others c (List.mem_append_left _ hc),
    stays after fun c hc => others c (List.mem_append_right _ hc)]

theorem serve_addReview (hd : (s.beers.map (·.id.render)).Nodup) (id : Uuid) (text : String) (entry : NewReview)
    (now : Time) : Serves s (.addReview id text entry now) (s.serve (.addReview id text entry now)).1
      (s.serve (.addReview id text entry now)).2 := by
  cases hid : Uuid.parse? text with
  | none =>
    have h : s.addReview id text entry now = .error .invalidId := by
      simp only [addReview, hid]
      rfl
    simp only [serve, h, settle]
    exact .invalidId hid
  | some u =>
    have wellFormed : Uuid.parse? text ≠ none := by simp [hid]
    by_cases valid : entry.validate = []
    · cases hb : s.beers.find? (·.id.render = text) with
      | none =>
        have h : s.addReview id text entry now = .error .notFound := by
          simp only [addReview, find, hid, valid, accept_nil, hb]
          rfl
        simp only [serve, h, settle]
        exact .unknown wellFormed valid fun b hmem => by simpa using List.find?_eq_none.mp hb b hmem
      | some b =>
        obtain ⟨rfl, before, after, hs⟩ := find?_split hb
        have others := others_differ hd hs
        have h : s.addReview id b.id.render entry now = .ok ({ id, beer := b.id, entry, created := now },
            ({ s with reviews := s.reviews ++ [{ id, beer := b.id, entry, created := now }] } : Store).rescore
              b.id) := by
          simp only [addReview, find, hid, valid, accept_nil, hb]
          rfl
        have hr := rescore_eq (s := { s with reviews := s.reviews ++ [{ id, beer := b.id, entry, created := now }] })
          hs others
        simp only [serve, h, settle, hr, reviewsOf_append, if_true, List.map_append, List.map_cons, List.map_nil]
        exact .review valid hs others
    · have h : s.addReview id text entry now = .error (.invalid entry.validate) := by
        simp only [addReview, hid, accept_error valid]
        rfl
      simp only [serve, h, settle]
      exact .invalidReview wellFormed valid

/-- What a call comes to, in a store whose beers have identifiers of their own. -/
theorem serves_serve (hd : (s.beers.map (·.id.render)).Nodup) (c : Call) : Serves s c (s.serve c).1 (s.serve c).2 := by
  cases c with
  | addBeer id entry now => exact serve_addBeer s id entry now
  | addReview id text entry now => exact serve_addReview hd id text entry now

/-! ## Consistency -/

theorem consistent_empty : Consistent {} := by
  refine ⟨?_, ?_, ?_, ?_, ?_, ?_⟩ <;> simp

theorem tally_eq (scores : List Float32) :
    tally scores = (scores.foldl (· + ·) 0, UInt32.ofNat scores.length) := by
  -- from the end, for the fold takes the last score last
  induction scores using List.reverseRecOn with
  | nil => rfl
  | append_singleton scores score ih =>
    rw [tally, List.foldl_append, ← tally, ih]
    simp only [List.foldl_append, List.foldl_cons, List.foldl_nil, List.length_append, List.length_singleton,
      UInt32.ofNat_add]
    rfl

theorem isMean_mean {scores : List Float32} (few : scores.length < UInt32.size) : IsMean scores (mean scores) :=
  ⟨UInt32.ofNat scores.length, UInt32.toNat_ofNat_of_lt' few, by rw [mean, tally_eq]⟩

/-- A score depends on the reviews of the beer alone. -/
theorem Scored.congr {s s' : Store} {b : Beer} (h : s'.reviewsOf b.id = s.reviewsOf b.id) (scored : s.Scored b) :
    s'.Scored b :=
  ⟨h ▸ scored.unreviewed, h ▸ scored.reviewed⟩

theorem scored_of_mean {b : Beer} (some : s.reviewsOf b.id ≠ []) (fits : s.CountFits b.id)
    (score : b.score = mean ((s.reviewsOf b.id).map (·.entry.score))) : s.Scored b where
  unreviewed none := absurd none some
  reviewed _ := by
    rw [CountFits, ← List.length_map] at fits
    rw [score]
    exact isMean_mean fits

/-- An identifier that no record has is not written like that of any. -/
theorem render_notMem {ids : List Uuid} {id : Uuid} (h : id ∉ ids) :
    id.render ∉ ids.map Uuid.render := by
  intro hmem
  obtain ⟨u, hu, heq⟩ := List.mem_map.mp hmem
  exact h (Uuid.render_injective heq ▸ hu)

theorem map_render (bs : List Beer) : bs.map (·.id.render) = (bs.map (·.id)).map Uuid.render := by
  rw [List.map_map]
  rfl

theorem nodup_render_concat {α : Type} (idOf : α → Uuid) {records : List α} {a : α}
    (hd : (records.map fun x => (idOf x).render).Nodup) (fresh : idOf a ∉ records.map idOf) :
    ((records ++ [a]).map fun x => (idOf x).render).Nodup := by
  have hnew := render_notMem fresh
  rw [List.map_map] at hnew
  rw [List.map_append, List.nodup_append]
  refine ⟨hd, by simp, ?_⟩
  intro x hx y hy heq
  simp only [List.map_cons, List.map_nil, List.mem_singleton] at hy
  subst hy
  exact hnew (heq ▸ hx)

theorem Consistent.beer_mem (hc : s.Consistent) {r : Review} (hr : r ∈ s.reviews) : r.beer ∈ s.beers.map (·.id) := by
  have := hc.reviewed r hr
  exact List.count_pos_iff.mp (by omega)

theorem Consistent.addBeer (hc : s.Consistent) {id : Uuid} {entry : NewBeer} {now : Time}
    (valid : entry.validate = []) (fresh : id ∉ s.beers.map (·.id)) :
    Consistent { s with beers := s.beers ++ [{ id, entry, score := 0, created := now }] } := by
  have none_yet : s.reviewsOf id = [] := by
    refine List.filter_eq_nil_iff.mpr fun r hr heq => ?_
    exact fresh (decide_eq_true_eq.mp heq ▸ hc.beer_mem hr)
  refine ⟨nodup_render_concat Beer.id hc.beers_distinct fresh, hc.reviews_distinct, ?_, ?_, ?_,
    hc.reviews_valid⟩
  · intro r hr
    have old : id ≠ r.beer := fun heq => fresh (heq ▸ hc.beer_mem hr)
    simp only [List.map_append, List.count_append, hc.reviewed r hr, List.map_cons, List.map_nil]
    rw [List.count_cons_of_ne old, List.count_nil]
  · intro b hb fits
    rcases List.mem_append.mp hb with hb | hb
    · exact Scored.congr (s := s) rfl (hc.scored b hb fits)
    · rw [List.mem_singleton.mp hb]
      exact ⟨fun _ => rfl, fun some => absurd none_yet some⟩
  · intro b hb
    rcases List.mem_append.mp hb with hb | hb
    · exact hc.beers_valid b hb
    · rw [List.mem_singleton.mp hb]
      exact valid

theorem Consistent.addReview (hc : s.Consistent) {id : Uuid} {entry : NewReview} {now : Time}
    {before after : List Beer} {b : Beer} (valid : entry.validate = []) (hs : s.beers = before ++ b :: after)
    (others : ∀ c ∈ before ++ after, c.id ≠ b.id) (fresh : id ∉ s.reviews.map (·.id)) :
    Consistent
      { beers := before ++ { b with score := mean (((s.reviewsOf b.id).map (·.entry.score)) ++ [entry.score]) } ::
          after
        reviews := s.reviews ++ [{ id, beer := b.id, entry, created := now }] } := by
  -- the new review and the rescored beer have names, so that what is said of all others does not look into them
  obtain ⟨r, hr⟩ : ∃ r : Review, r = { id, beer := b.id, entry, created := now } := ⟨_, rfl⟩
  obtain ⟨b', hb'⟩ : ∃ b' : Beer, b' = { b with
    score := mean (((s.reviewsOf b.id).map (·.entry.score)) ++ [entry.score]) } := ⟨_, rfl⟩
  rw [← hr, ← hb']
  have sameId : b'.id = b.id := by rw [hb']
  have ids : (before ++ b' :: after).map (·.id) = s.beers.map (·.id) := by
    rw [hs, List.map_append, List.map_append, List.map_cons, List.map_cons, sameId]
  have ofBeer : ∀ beer, (⟨before ++ b' :: after, s.reviews ++ [r]⟩ : Store).reviewsOf beer =
      s.reviewsOf beer ++ if b.id = beer then [r] else [] := by
    intro beer
    have := reviewsOf_append s r beer
    rw [hr] at this ⊢
    exact this
  have old : ∀ c ∈ before ++ after, c ∈ s.beers := by
    intro c hmem
    rw [hs]
    exact (List.perm_middle.mem_iff).mpr (List.mem_cons_of_mem b hmem)
  have member : b ∈ s.beers := hs ▸ List.mem_append_right _ List.mem_cons_self
  refine ⟨?_, ?_, ?_, ?_, ?_, ?_⟩
  · rw [map_render, ids, ← map_render]
    exact hc.beers_distinct
  · exact nodup_render_concat Review.id hc.reviews_distinct (by rw [hr]; exact fresh)
  · intro x hx
    rw [ids]
    rcases List.mem_append.mp hx with hx | hx
    · exact hc.reviewed x hx
    · rw [List.mem_singleton.mp hx, hr, hs, List.map_append, List.map_cons, List.count_append, List.count_cons_self]
      have absent : ∀ cs : List Beer, (∀ c ∈ cs, c.id ≠ b.id) → (cs.map (·.id)).count b.id = 0 := by
        intro cs hcs
        rw [List.count_eq_zero]
        intro hmem
        obtain ⟨c, hmem, heq⟩ := List.mem_map.mp hmem
        exact hcs c hmem heq
      rw [absent before fun c h => others c (List.mem_append_left _ h),
        absent after fun c h => others c (List.mem_append_right _ h)]
  · intro c hmem fits
    rcases List.mem_cons.mp ((List.perm_middle.mem_iff).mp hmem) with rfl | hmem
    · refine scored_of_mean (by simp [ofBeer, sameId]) fits ?_
      rw [ofBeer, sameId, if_pos rfl, List.map_append, hr, hb']
      rfl
    · have stays : (⟨before ++ b' :: after, s.reviews ++ [r]⟩ : Store).reviewsOf c.id = s.reviewsOf c.id := by
        rw [ofBeer, if_neg (Ne.symm (others c hmem)), List.append_nil]
      have fits' : s.CountFits c.id := by rwa [CountFits, ← stays]
      exact (hc.scored c (old c hmem) fits').congr stays
  · intro c hmem
    rcases List.mem_cons.mp ((List.perm_middle.mem_iff).mp hmem) with rfl | hmem
    · rw [hb']
      exact hc.beers_valid b member
    · exact hc.beers_valid c (old c hmem)
  · intro x hx
    rcases List.mem_append.mp hx with hx | hx
    · exact hc.reviews_valid x hx
    · rw [List.mem_singleton.mp hx, hr]
      exact valid

def ids (s : Store) : List Uuid := s.beers.map (·.id) ++ s.reviews.map (·.id)

/-- A call keeps the store consistent, if its identifier is new. -/
theorem Consistent.serve (hc : s.Consistent) {c : Call} (fresh : c.id ∉ s.ids) : (s.serve c).2.Consistent := by
  have h := serves_serve hc.beers_distinct c
  generalize (s.serve c).1 = outcome at h
  generalize (s.serve c).2 = s' at h
  cases h with
  | beer valid => exact hc.addBeer valid fun hmem => fresh (List.mem_append_left _ hmem)
  | review valid beers others =>
    exact hc.addReview valid beers others fun hmem => fresh (List.mem_append_right _ hmem)
  | invalidBeer | invalidId | invalidReview | unknown => exact hc

/-- Where there is room before a call, the reviews of the beer that it names can be counted after it. -/
theorem Room.countFits (room : s.Room c) (hd : (s.beers.map (·.id.render)).Nodup) :
    ∀ b ∈ (s.serve c).2.beers, c.beer? = some b.id.render → (s.serve c).2.CountFits b.id := by
  have h := serves_serve hd c
  generalize (s.serve c).1 = outcome at h
  generalize (s.serve c).2 = s' at h
  intro b stored named
  cases h with
  | beer => cases named
  | invalidBeer | invalidId | invalidReview | unknown =>
    have := room b stored named
    rw [CountFits]
    omega
  | @review id entry now before after b' valid beers others =>
    have same : b'.id = b.id := Uuid.render_injective (Option.some.inj named)
    have before := room b' (beers ▸ List.mem_append_right _ List.mem_cons_self) rfl
    have count := congrArg List.length (reviewsOf_append s { id, beer := b'.id, entry, created := now } b.id)
    rw [if_pos same, List.length_append, List.length_singleton, ← same] at count
    rw [CountFits, ← same]
    exact Nat.lt_of_le_of_lt (Nat.le_of_eq count) before

/-- A call stores its own identifier or none. -/
theorem ids_serve (hc : s.Consistent) (c : Call) :
    (s.serve c).2.ids.Perm (c.id :: s.ids) ∨ (s.serve c).2.ids = s.ids := by
  have h := serves_serve hc.beers_distinct c
  generalize (s.serve c).1 = outcome at h
  generalize (s.serve c).2 = s' at h
  cases h with
  | beer valid =>
    left
    simp only [ids, List.map_append, List.append_assoc, List.map_cons, List.map_nil]
    exact List.perm_middle
  | @review id entry now before after b valid beers others =>
    left
    simp only [ids, beers, List.map_append, List.map_cons, List.map_nil, ← List.append_assoc]
    exact List.perm_append_singleton _ _
  | invalidBeer | invalidId | invalidReview | unknown => exact Or.inr rfl

end Store

/-! ## Many calls at once -/

/-- A store in use. -/
structure Session where
  store : Store := {}
  /-- The calls that have begun and wait for the lock. -/
  waiting : List Call := []
  /-- The calls that were served, in order, and what they came to. -/
  served : List (Call × Except Refusal Record) := []

inductive Action where
  /-- A call begins. -/
  | begin (c : Call)
  /-- One of the calls that wait gets the lock, by its place among them. -/
  | serve (n : Nat)

/-- The identifier that is drawn. -/
def Action.id? : Action → Option Uuid
  | .begin c => some c.id
  | .serve _ => none

def step (s : Session) : Action → Option Session
  | .begin c => some { s with waiting := s.waiting ++ [c] }
  | .serve n =>
    match s.waiting[n]? with
    | none => none
    | some c =>
      let (outcome, store) := s.store.serve c
      some { store, waiting := s.waiting.eraseIdx n, served := s.served ++ [(c, outcome)] }

def run (s : Session) : List Action → Option Session
  | [] => some s
  | a :: rest => (step s a).bind fun s' => run s' rest

def Session.ids (s : Session) : List Uuid := s.waiting.map Call.id ++ s.store.ids

theorem step_cases {s s' : Session} {a : Action} (h : step s a = some s') :
    (∃ c, a = .begin c ∧ s' = { s with waiting := s.waiting ++ [c] }) ∨
    (∃ n c, a = .serve n ∧ s.waiting[n]? = some c ∧ s' = { store := (s.store.serve c).2
                                                           waiting := s.waiting.eraseIdx n
                                                           served := s.served ++ [(c, (s.store.serve c).1)] }) := by
  cases a with
  | begin c =>
    simp only [step, Option.some.injEq] at h
    exact Or.inl ⟨c, rfl, h.symm⟩
  | serve n =>
    simp only [step] at h
    split at h
    · cases h
    · rename_i c hc
      simp only [Option.some.injEq] at h
      exact Or.inr ⟨n, c, rfl, hc, h.symm⟩

theorem waiting_perm {s : Session} {n : Nat} {c : Call} (hc : s.waiting[n]? = some c) :
    s.waiting.Perm (c :: s.waiting.eraseIdx n) := by
  obtain ⟨hn, rfl⟩ := List.getElem?_eq_some_iff.mp hc
  have split : s.waiting.take n ++ s.waiting[n] :: s.waiting.drop (n + 1) = s.waiting := by
    rw [← List.drop_eq_getElem_cons hn, List.take_append_drop]
  rw [List.eraseIdx_eq_take_drop_succ]
  exact (List.Perm.of_eq split.symm).trans List.perm_middle

/-- The invariant, for a run that is still to draw some identifiers. -/
structure Inv (s : Session) (later : List Uuid) : Prop where
  consistent : s.store.Consistent
  fresh : (s.ids ++ later).Nodup

theorem inv_start {ids : List Uuid} (fresh : ids.Nodup) : Inv {} ids :=
  ⟨Store.consistent_empty, by simpa [Session.ids, Store.ids] using fresh⟩

/-- No identifier comes up twice. -/
theorem ids_step {s s' : Session} {a : Action} {later : List Uuid} (I : Inv s (a.id?.toList ++ later))
    (h : step s a = some s') : (s'.ids ++ later).Nodup := by
  have fresh := I.fresh
  rcases step_cases h with ⟨c, rfl, rfl⟩ | ⟨n, c, rfl, hc, rfl⟩
  · simp only [Action.id?, Option.toList_some] at fresh
    refine (List.Perm.nodup_iff ?_).mp fresh
    simp only [Session.ids, List.map_append, List.map_cons, List.map_nil, List.append_assoc]
    exact List.Perm.append_left _ List.perm_middle
  · simp only [Action.id?, Option.toList_none, List.nil_append] at fresh
    have perm : (s.ids ++ later).Perm
        ((s.waiting.eraseIdx n).map Call.id ++ (c.id :: s.store.ids) ++ later) := by
      refine List.Perm.append_right _ ?_
      refine (List.Perm.append_right _ ((waiting_perm hc).map _)).trans ?_
      exact List.perm_middle.symm
    have fresh' := perm.nodup_iff.mp fresh
    rcases Store.ids_serve I.consistent c with hids | hids
    · exact (((hids.append_left _).append_right _).nodup_iff).mpr fresh'
    · simp only [Session.ids, hids]
      exact fresh'.sublist (List.Sublist.append_right ((List.sublist_cons_self _ _).append_left _) _)

theorem inv_step {s s' : Session} {a : Action} {later : List Uuid} (I : Inv s (a.id?.toList ++ later))
    (h : step s a = some s') : Inv s' later := by
  refine ⟨?_, ids_step I h⟩
  rcases step_cases h with ⟨c, rfl, rfl⟩ | ⟨n, c, rfl, hc, rfl⟩
  · exact I.consistent
  · refine I.consistent.serve fun hmem => ?_
    have waits : c.id ∈ s.waiting.map Call.id := List.mem_map_of_mem (List.mem_of_getElem? hc)
    have distinct := (List.nodup_append.mp I.fresh).1
    exact (List.nodup_append.mp distinct).2.2 _ waits _ hmem rfl

theorem inv_run {s s' : Session} {as : List Action} {later : List Uuid}
    (I : Inv s (as.filterMap Action.id? ++ later)) (h : run s as = some s') : Inv s' later := by
  induction as generalizing s with
  | nil =>
    simp only [run, Option.some.injEq] at h
    subst h
    exact I
  | cons a as ih =>
    simp only [run, Option.bind_eq_some_iff] at h
    obtain ⟨s₁, h₁, h₂⟩ := h
    refine ih (inv_step ?_ h₁) h₂
    cases ha : a.id? <;> simpa [ha] using I

/-- In whatever order calls begin and are served, the store is consistent, and each call that waits can be served while
there is room to count one more review of the beer that it names: it then stores one record at the end and changes no
score but that of the beer of a new review, or it is refused and changes nothing. Every score is right of a beer with
fewer than 2 ^ 32 reviews, and after a call so is that of the beer it named. -/
theorem store_consistent (as : List Action) (s : Session) (h : run {} as = some s)
    (fresh : (as.filterMap Action.id?).Nodup) :
    s.store.Consistent ∧ ∀ n c, s.waiting[n]? = some c → s.store.Room c → ∃ outcome store,
      step s (.serve n) = some { store, waiting := s.waiting.eraseIdx n, served := s.served ++ [(c, outcome)] } ∧
      s.store.Serves c outcome store ∧ store.Consistent ∧
      ∀ b ∈ store.beers, c.beer? = some b.id.render → store.Scored b := by
  have start : Inv {} (as.filterMap Action.id? ++ []) := inv_start (by rwa [List.append_nil])
  have I := inv_run start h
  refine ⟨I.consistent, ?_⟩
  intro n c hc room
  have served : step s (.serve n) = some { store := (s.store.serve c).2
                                           waiting := s.waiting.eraseIdx n
                                           served := s.served ++ [(c, (s.store.serve c).1)] } := by
    simp only [step, hc]
  have I' : Inv _ [] := inv_step (by simpa [Action.id?] using I) served
  refine ⟨_, _, served, Store.serves_serve I.consistent.beers_distinct c, I'.consistent, fun b stored named => ?_⟩
  exact I'.consistent.scored b stored (room.countFits I.consistent.beers_distinct b stored named)

/-- Two beers and a review of the first begin, and are served in another order; one more review still waits. -/
def tasting : List Action :=
  let gose : NewBeer := { name := "Gose", brewery := "Leipzig", style := "Sour", abv := 4.5, shortDesc := "salty" }
  let praise : NewReview := { userId := (Uuid.fresh 3 0).render, score := 4, comment := "crisp" }
  [.begin (.addBeer (.fresh 2 0) gose .epoch),
   .begin (.addReview (.fresh 2 1) (Uuid.fresh 2 0).render praise .epoch),
   .begin (.addBeer (.fresh 2 2) gose .epoch),
   .begin (.addReview (.fresh 2 3) (Uuid.fresh 2 0).render praise .epoch),
   .serve 2, .serve 0, .serve 0]

theorem store_consistent_tasting : ∃ s, (run {} tasting = some s ∧ (tasting.filterMap Action.id?).Nodup) ∧
    s.store.Consistent ∧ s.served.length = 3 ∧ ∃ c outcome store, s.waiting[0]? = some c ∧ s.store.Room c ∧
      s.store.Serves c outcome store ∧ store.Consistent ∧ ∃ b ∈ store.beers, b.id = .fresh 2 0 ∧ store.Scored b := by
  have fresh : (tasting.filterMap Action.id?).Nodup := by decide +kernel
  obtain ⟨s, s', c, b, h, served, reviews, waits, named, after, last, id⟩ :
      ∃ s s' c b, run {} tasting = some s ∧ s.served.length = 3 ∧ s.store.reviews.length = 1 ∧
        s.waiting[0]? = some c ∧ c.beer? = some (Uuid.fresh 2 0).render ∧ step s (.serve 0) = some s' ∧
        s'.store.beers[1]? = some b ∧ b.id = .fresh 2 0 := ⟨_, _, _, _, rfl, rfl, rfl, rfl, rfl, rfl, rfl, rfl⟩
  have room : s.store.Room c := by
    intro b _ _
    have count : (s.store.reviewsOf b.id).length ≤ s.store.reviews.length := List.length_filter_le _ _
    have two : 2 < UInt32.size := by decide
    exact Nat.lt_of_le_of_lt (by omega) two
  obtain ⟨consistent, serves⟩ := store_consistent tasting s h fresh
  obtain ⟨outcome, store, step, hs, consistent', scored⟩ := serves 0 c waits room
  obtain rfl := Option.some.inj (after.symm.trans step)
  have stored : b ∈ store.beers := List.mem_of_getElem? last
  exact ⟨s, ⟨h, fresh⟩, consistent, served, c, outcome, store, waits, room, hs, consistent', b, stored, id,
    scored b stored (id ▸ named)⟩

end JsonService.Beers
