import JsonService.Proofs.Beers.Consistency

/-!
# By which texts a beer is found

A beer is named by a text. Three operations take one: a beer is shown, its reviews are listed, or one more is stored.
They refuse a text from which no UUID is read, in whatever form; but they compare the texts themselves, so of the texts
that spell the UUID of a beer only its own, the hyphenated one in small letters, finds it.

**Results.**
* `find_invalidId`, `find_notFound`, `find_eq_ok`: why nothing is found, or what.
* `listReviews_eq`, `addReview_eq`: the other operations begin by finding the beer.
* `acts_stored`: by its own text a beer is shown, and so are its reviews, the newest included, which counts in its
  score.
* `found_by_own_text`: so every text of a reachable store is refused or names a beer, and by its own text every stored
  beer is found.
* `bare_digits_not_found`: by the digits of its UUID alone a beer is not found.
-/
namespace JsonService.Beers

namespace Store

variable {s : Store} {text : String}

/-! ## Finding a beer -/

theorem find_invalidId : s.find text = .error .invalidId ↔ ∀ u, ¬Uuid.Written u text.toList := by
  simp only [← Uuid.parse?_eq_some, ← ne_eq, ← Option.eq_none_iff_forall_ne_some, find]
  cases Uuid.parse? text with
  | none => simp
  | some u =>
    cases s.beers.find? (·.id.render = text) <;> simp

theorem find_notFound : s.find text = .error .notFound ↔
    (∃ u, Uuid.Written u text.toList) ∧ ∀ b ∈ s.beers, b.id.render ≠ text := by
  simp only [← Uuid.parse?_eq_some, find]
  cases Uuid.parse? text with
  | none => simp
  | some u =>
    cases hfind : s.beers.find? (·.id.render = text) with
    | none => simpa using hfind
    | some b =>
      have named : b.id.render = text := by simpa using List.find?_some hfind
      have known : ∃ b ∈ s.beers, b.id.render = text := ⟨b, List.mem_of_find?_eq_some hfind, named⟩
      simpa using known

theorem find_eq_ok {b : Beer} (h : s.find text = .ok b) : b ∈ s.beers ∧ b.id.render = text := by
  unfold find at h
  split at h
  · cases h
  split at h
  · next found =>
    cases h
    exact ⟨List.mem_of_find?_eq_some found, by simpa using List.find?_some found⟩
  · cases h

theorem listReviews_eq (s : Store) (text : String) (page : Page) :
    s.listReviews text page = (s.find text).map fun b => page.of (s.reviewsOf b.id) := rfl

/-- A review that passes its checks is stored if its beer is found. -/
theorem addReview_eq {entry : NewReview} (valid : entry.validate = []) (s : Store) (text : String) (id : Uuid)
    (now : Time) : s.addReview id text entry now = (s.find text).map fun b =>
      let review : Review := { id, beer := b.id, entry, created := now }
      (review, ({ s with reviews := s.reviews ++ [review] } : Store).rescore b.id) := by
  unfold addReview
  cases hid : Uuid.parse? text with
  | none => simp only [find, hid]; rfl
  | some u =>
    simp only [valid, accept_nil]
    rfl

theorem rescore_ids (s : Store) (beer : Uuid) : (s.rescore beer).beers.map (·.id) = s.beers.map (·.id) := by
  rw [rescore, List.map_map]
  refine List.map_congr_left fun b _ => ?_
  show (if b.id = beer then _ else _ : Beer).id = b.id
  split <;> rfl

/-- A beer that is rescored has the mean of the scores of its reviews. -/
theorem mem_rescore {b : Beer} (stored : b ∈ s.beers) :
    { b with score := mean ((s.reviewsOf b.id).map (·.entry.score)) } ∈ (s.rescore b.id).beers :=
  List.mem_map.mpr ⟨b, stored, if_pos rfl⟩

/-! ## Three operations -/

/-- What is done with a text is refused, for one reason, just if `P`. -/
structure RefusedIff (s : Store) (text : String) (r : Refusal) (P : Prop) : Prop where
  shown : s.find text = .error r ↔ P
  listed : ∀ page, s.listReviews text page = .error r ↔ P
  reviewed : ∀ id entry now, entry.validate = [] → (s.addReview id text entry now = .error r ↔ P)

/-- What is done with a text is done with a beer: it is shown, its reviews are listed, and one more that passes its
checks is stored as the last of them and counts in its score, which is their mean while the word in which they are
counted has room. -/
structure ActsOn (s : Store) (text : String) (b : Beer) : Prop where
  shown : s.find text = .ok b
  listed : ∀ page, s.listReviews text page = .ok (page.of (s.reviewsOf b.id))
  reviewed : ∀ id entry now, entry.validate = [] → ∃ review s' score,
    review = { id, beer := b.id, entry, created := now } ∧ s.addReview id text entry now = .ok (review, s') ∧
    (∀ page, s'.listReviews text page = .ok (page.of (s.reviewsOf b.id ++ [review]))) ∧
    s'.find text = .ok { b with score } ∧ score = mean ((s.reviewsOf b.id ++ [review]).map (·.entry.score)) ∧
    ((s.reviewsOf b.id).length + 1 < UInt32.size →
      IsMean ((s.reviewsOf b.id ++ [review]).map (·.entry.score)) score)

theorem map_eq_error {α β ε : Type} {x : Except ε α} {f : α → β} {e : ε} :
    x.map f = .error e ↔ x = .error e := by
  cases x <;> simp [Except.map]

theorem refusedIff {r : Refusal} {P : Prop} (h : s.find text = .error r ↔ P) : RefusedIff s text r P where
  shown := h
  listed page := by rw [listReviews_eq, map_eq_error, h]
  reviewed id entry now valid := by rw [addReview_eq valid, map_eq_error, h]

/-- By its own text something is done with a stored beer. -/
theorem acts_stored (distinct : (s.beers.map (·.id.render)).Nodup) {b : Beer} (stored : b ∈ s.beers) :
    ActsOn s b.id.render b where
  shown := find_stored distinct stored
  listed page := by
    rw [listReviews_eq, find_stored distinct stored]
    rfl
  reviewed id entry now valid := by
    obtain ⟨review, hreview⟩ : ∃ review : Review, review = { id, beer := b.id, entry, created := now } := ⟨_, rfl⟩
    obtain ⟨before, hbefore⟩ : ∃ before : Store, before = { s with reviews := s.reviews ++ [review] } := ⟨_, rfl⟩
    have reviews : before.reviewsOf b.id = s.reviewsOf b.id ++ [review] := by
      rw [hbefore, reviewsOf_append, hreview, if_pos rfl]
    have distinct' : ((before.rescore b.id).beers.map (·.id.render)).Nodup := by
      rw [map_render, rescore_ids, ← map_render, hbefore]
      exact distinct
    have rescored := mem_rescore (s := before) (b := b) (by rw [hbefore]; exact stored)
    refine ⟨review, before.rescore b.id, _, hreview, ?_, fun page => ?_, ?_, rfl, fun few => isMean_mean ?_⟩
    · rw [addReview_eq valid, find_stored distinct stored, hbefore, hreview]
      rfl
    · rw [listReviews_eq, find_stored distinct' rescored, ← reviews]
      rfl
    · rw [← reviews]
      exact find_stored distinct' rescored
    · rw [List.length_map, List.length_append]
      exact few

end Store

/-! ## Reachable stores -/

/-- **A beer is found by its own text.** In whatever order calls began and were served: a text is refused as no UUID
just if it has none of the four forms, and as unknown just if it has one but is the own text of no stored beer. By its
own text a UUID is unknown just if no stored beer has it, and by the own text of a stored beer it is that beer that is
shown, whose reviews are listed, and to whose reviews and score a new review is added. -/
theorem found_by_own_text (as : List Action) (s : Session) (h : run {} as = some s)
    (fresh : (as.filterMap Action.id?).Nodup) (text : String) :
    s.store.RefusedIff text .invalidId (∀ u, ¬Uuid.Written u text.toList) ∧
    s.store.RefusedIff text .notFound
      ((∃ u, Uuid.Written u text.toList) ∧ ∀ b ∈ s.store.beers, b.id.render ≠ text) ∧
    (∀ u, u.render = text → s.store.RefusedIff text .notFound (∀ b ∈ s.store.beers, b.id ≠ u)) ∧
    ∀ b ∈ s.store.beers, b.id.render = text → s.store.ActsOn text b := by
  have start : Inv {} (as.filterMap Action.id? ++ []) := inv_start (by rwa [List.append_nil])
  have distinct := (inv_run start h).consistent.beers_distinct
  refine ⟨Store.refusedIff Store.find_invalidId, Store.refusedIff Store.find_notFound, ?_, ?_⟩
  · rintro u rfl
    have known : ∀ b : Beer, b.id.render ≠ u.render ↔ b.id ≠ u :=
      fun b => not_congr ⟨Uuid.render_injective, congrArg Uuid.render⟩
    refine Store.refusedIff (Store.find_notFound.trans ?_)
    simp only [known]
    exact and_iff_right ⟨u, u.written_render⟩
  · rintro b stored rfl
    exact Store.acts_stored distinct stored

/-- In the store of the tasting the beer that was stored last is found by its own text. -/
theorem found_by_own_text_tasting : ∃ s, (run {} tasting = some s ∧ (tasting.filterMap Action.id?).Nodup) ∧
    ∃ b ∈ s.store.beers, b.id = .fresh 2 0 ∧ s.store.ActsOn (Uuid.fresh 2 0).render b := by
  have fresh : (tasting.filterMap Action.id?).Nodup := by decide +kernel
  obtain ⟨s, b, h, last, named⟩ : ∃ s b, run {} tasting = some s ∧ s.store.beers[1]? = some b ∧ b.id = .fresh 2 0 :=
    ⟨_, _, rfl, rfl, rfl⟩
  obtain ⟨-, -, -, acts⟩ := found_by_own_text tasting s h fresh (Uuid.fresh 2 0).render
  have stored := List.mem_of_getElem? last
  exact ⟨s, ⟨h, fresh⟩, b, stored, named, acts b stored (congrArg Uuid.render named)⟩

/-- By the digits of its UUID alone, which spell it, a beer of the tasting is not found. -/
theorem bare_digits_not_found : ∃ s, run {} tasting = some s ∧ ∃ b ∈ s.store.beers,
    Uuid.Written b.id b.id.bare.toList ∧ s.store.RefusedIff b.id.bare .notFound True := by
  obtain ⟨s, b, h, stored⟩ : ∃ s b, run {} tasting = some s ∧ s.store.beers.head? = some b := ⟨_, _, rfl, rfl⟩
  have unknown : s.store.find b.id.bare = .error .notFound :=
    Store.find_notFound.mpr ⟨⟨b.id, b.id.written_bare⟩, fun c _ => Uuid.render_ne_bare c.id b.id⟩
  exact ⟨s, h, b, List.mem_of_head? stored, b.id.written_bare, Store.refusedIff (iff_true_intro unknown)⟩

end JsonService.Beers
