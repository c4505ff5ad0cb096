import JsonService.Proofs.Shutdown.OneSignal

/-!
# The call that wins

The latch of a channel is closed by one call, the winner. What that call returns says whether the receiver
was there to be told, and what a call has returned never changes.

**Results.**
* `winner_step`: a closed latch has a winner, and a winner that could not send has no receiver left.
* `later_step`: calls go on, and what they have returned stays.
* `carried_of_receiving`: once every call has returned, a receiver that is still there has one signal.
* `plain_step`: a channel whose one sender signals nothing but to terminate stays one.
-/
namespace JsonService.Channel

/-! ## The winner -/

structure Winner (s : Session) : Prop where
  passed : s.channel.fired = true → ∃ c ∈ s.calls, c.passed = true
  refused : ∀ c ∈ s.calls, c.progress = .tried false → s.channel.receiving = false

theorem winner_init : Winner {} := ⟨by simp, by simp⟩

theorem receiving_trySend (c : Channel) (sig : Signal) : (c.trySend sig).2.receiving = c.receiving := by
  unfold trySend
  split <;> rfl

theorem Moves.receiving {s s' : Session} (h : Moves s s') (hr : s.channel.receiving = false) :
    s'.channel.receiving = false := by
  rcases h.carried with ⟨-, h⟩ | ⟨-, h⟩
  · rw [h, hr]
  · exact h

theorem winner_step {s s' : Session} {a : Action} (I : Inv s) (W : Winner s) (h : step s a = some s') :
    Winner s' := by
  rcases step_cases h with ⟨n, sig, rfl⟩ | ⟨i, c, hc, hb, rfl⟩ | ⟨i, c, hc, hw, rfl⟩ | hm
  · refine ⟨fun hf => ?_, fun c hc hp => ?_⟩
    · obtain ⟨c, hc, hp⟩ := W.passed hf
      exact ⟨c, List.mem_append_left _ hc, hp⟩
    · rcases List.mem_append.mp hc with hc | hc
      · exact W.refused c hc hp
      · rw [List.mem_singleton.mp hc] at hp
        cases hp
  · refine ⟨fun _ => ?_, fun d hd hp => ?_⟩
    · cases hf : s.channel.fired with
      | false => exact ⟨_, self_mem_set_call hc, by simp [swap, hf, SignalCall.passed]⟩
      | true =>
        obtain ⟨d, hd, hp⟩ := W.passed hf
        refine ⟨d, mem_set_call hc hd ?_, hp⟩
        rintro rfl
        simp [SignalCall.passed, hb] at hp
    · rcases List.mem_or_eq_of_mem_set hd with hd | rfl
      · exact W.refused d hd hp
      · simp only at hp
        split at hp <;> cases hp
  · refine ⟨fun _ => ⟨_, self_mem_set_call hc, rfl⟩, fun d hd hp => ?_⟩
    simp only [receiving_trySend]
    rcases List.mem_or_eq_of_mem_set hd with hd | rfl
    · exact W.refused d hd hp
    · -- the queue is empty, so only a receiver that is gone can refuse
      have empty := I.carried_nil (List.mem_of_getElem? hc) hw
      simp only [Session.carried, List.append_eq_nil_iff, Option.toList_eq_nil_iff] at empty
      simp only [Progress.tried.injEq] at hp
      cases hr : s.channel.receiving with
      | false => rfl
      | true => simp [trySend, hr, empty.1] at hp
  · refine ⟨fun hf => ?_, fun c hc hp => ?_⟩
    · rw [hm.calls]
      exact W.passed (hm.fired ▸ hf)
    · exact hm.receiving (W.refused c (hm.calls ▸ hc) hp)

/-! ## Calls that go on -/

/-- The calls are there still, and what they have returned is as it was. -/
def Later (calls calls' : List SignalCall) : Prop :=
  ∀ (k : Nat) (c : SignalCall), calls[k]? = some c →
    ∃ c', calls'[k]? = some c' ∧ c'.signal = c.signal ∧ ∀ first, c.returned = some first → c'.returned = some first

theorem Later.refl (calls : List SignalCall) : Later calls calls := fun _ c h => ⟨c, h, rfl, fun _ h => h⟩

theorem Later.trans {calls calls' calls'' : List SignalCall} (h : Later calls calls') (h' : Later calls' calls'') :
    Later calls calls'' := by
  intro k c hc
  obtain ⟨c', hc', hs, hr⟩ := h k c hc
  obtain ⟨c'', hc'', hs', hr'⟩ := h' k c' hc'
  exact ⟨c'', hc'', hs'.trans hs, fun first h => hr' first (hr first h)⟩

theorem later_set {calls : List SignalCall} {i : Nat} {c : SignalCall} (hc : calls[i]? = some c)
    (hr : c.returned = none) (p : Progress) : Later calls (calls.set i { c with progress := p }) := by
  intro k d hd
  by_cases hk : i = k
  · subst hk
    obtain rfl : d = c := Option.some.inj (hd.symm.trans hc)
    have hi := (List.getElem?_eq_some_iff.mp hc).1
    refine ⟨{ d with progress := p }, by rw [List.getElem?_set_self hi], rfl, ?_⟩
    intro first h
    rw [hr] at h
    cases h
  · exact ⟨d, by rw [List.getElem?_set_ne hk]; exact hd, rfl, fun _ h => h⟩

theorem later_step {s s' : Session} {a : Action} (h : step s a = some s') : Later s.calls s'.calls := by
  rcases step_cases h with ⟨n, sig, rfl⟩ | ⟨i, c, hc, hb, rfl⟩ | ⟨i, c, hc, hw, rfl⟩ | hm
  · intro k c hc
    refine ⟨c, ?_, rfl, fun _ h => h⟩
    rw [List.getElem?_append_left (List.getElem?_eq_some_iff.mp hc).1, hc]
  · exact later_set hc (by simp [SignalCall.returned, hb]) _
  · exact later_set hc (by simp [SignalCall.returned, hw]) _
  · exact hm.calls ▸ Later.refl s.calls

/-! ## Once every call has returned -/

section
variable {s : Session} (I : Inv s) (W : Winner s)
include I W

/-- Of calls that have all returned, one closed the latch and has tried to send. -/
theorem exists_tried (some_call : s.calls ≠ []) (returned : ∀ c ∈ s.calls, c.returned ≠ none) :
    ∃ c ∈ s.calls, ∃ sent, c.progress = .tried sent := by
  obtain ⟨c, hc⟩ := List.exists_mem_of_ne_nil _ some_call
  obtain ⟨first, hfirst⟩ := Option.ne_none_iff_exists'.mp (returned c hc)
  obtain ⟨d, hd, hp⟩ := W.passed (I.latch.mpr ⟨c, hc, hasSwapped_of_returned hfirst⟩)
  have := returned d hd
  refine ⟨d, hd, ?_⟩
  simp only [SignalCall.passed] at hp
  split at hp
  · next hw => simp [SignalCall.returned, hw] at this
  · next sent ht => exact ⟨sent, ht⟩
  all_goals cases hp

/-- Once every call has returned, a receiver that is still there has one signal or finds one queued. -/
theorem carried_of_receiving (some_call : s.calls ≠ []) (returned : ∀ c ∈ s.calls, c.returned ≠ none)
    (receiving : s.channel.receiving = true) :
    ∃ c ∈ s.calls, c.returned = some true ∧ s.carried = [c.signal] := by
  obtain ⟨c, hc, sent, ht⟩ := exists_tried I W some_call returned
  cases sent with
  | false =>
    rw [W.refused c hc ht] at receiving
    cases receiving
  | true =>
    refine ⟨c, hc, returned_true_iff.mpr ht, ?_⟩
    have kept := I.kept c hc ht receiving
    have single := I.single
    obtain ⟨sig, hsig⟩ := List.length_eq_one_iff.mp
      (Nat.le_antisymm single (List.length_pos_of_mem kept))
    rw [hsig] at kept ⊢
    rw [List.mem_singleton.mp kept]

end

theorem untouched {s : Session} (I : Inv s) (no_call : s.calls = []) :
    s.channel.fired = false ∧ s.carried = [] :=
  I.untouched (by simp [no_call])

theorem true_unique {s : Session} (I : Inv s) {i j : Nat} {c d : SignalCall} (hi : s.calls[i]? = some c)
    (hj : s.calls[j]? = some d) (hc : c.returned = some true) (hd : d.returned = some true) : i = j :=
  I.winner i j c d hi hj (by simp [SignalCall.passed, returned_true_iff.mp hc])
    (by simp [SignalCall.passed, returned_true_iff.mp hd])

/-! ## A channel of one sender -/

/-- The action signals to terminate or is the receiver's: there is one sender, and it stays. -/
def Action.plain : Action → Prop
  | .call _ sig => sig = .terminate
  | .clone _ | .dropSender _ => False
  | _ => True

/-- A channel whose one sender signals nothing but to terminate. -/
structure Plain (s : Session) : Prop where
  inv : Inv s
  winner : Winner s
  sender : s.channel.senders = [true]
  terminate : ∀ c ∈ s.calls, c.signal = .terminate

theorem plain_init : Plain {} := ⟨inv_init, winner_init, rfl, by simp⟩

theorem senders_trySend (c : Channel) (sig : Signal) : (c.trySend sig).2.senders = c.senders := by
  unfold trySend
  split <;> rfl

theorem senders_receive (c : Channel) : c.receive.2.senders = c.senders := by
  unfold receive
  split <;> rfl

theorem terminate_set {calls : List SignalCall} {i : Nat} {c : SignalCall} (hc : calls[i]? = some c)
    (h : ∀ c ∈ calls, c.signal = .terminate) (p : Progress) :
    ∀ d ∈ calls.set i { c with progress := p }, d.signal = .terminate := by
  intro d hd
  rcases List.mem_or_eq_of_mem_set hd with hd | rfl
  · exact h d hd
  · exact h c (List.mem_of_getElem? hc)

/-- What a plain action leaves of the sender and of what is signalled. -/
theorem kept_step {s s' : Session} {a : Action} (sender : s.channel.senders = [true])
    (terminate : ∀ c ∈ s.calls, c.signal = .terminate) (ha : a.plain) (h : step s a = some s') :
    s'.channel.senders = [true] ∧ ∀ c ∈ s'.calls, c.signal = .terminate := by
  cases a with
  | call n sig =>
    simp only [step] at h
    split at h
    · cases h
      refine ⟨sender, fun c hc => ?_⟩
      rcases List.mem_append.mp hc with hc | hc
      · exact terminate c hc
      · exact (List.mem_singleton.mp hc).symm ▸ ha
    · cases h
  | swap i =>
    simp only [step] at h
    split at h
    · cases h
    · next c hc =>
      split at h
      · cases h
        exact ⟨sender, terminate_set hc terminate _⟩
      · cases h
  | trySend i =>
    simp only [step] at h
    split at h
    · cases h
    · next c hc =>
      split at h
      · cases h
        exact ⟨(senders_trySend _ _).trans sender, terminate_set hc terminate _⟩
      · cases h
  | clone n => exact ha.elim
  | dropSender n => exact ha.elim
  | dropReceiver | tryReceive =>
    simp only [step] at h
    split at h
    · cases h
      exact ⟨sender, terminate⟩
    · cases h
  | receive =>
    simp only [step] at h
    split at h
    · cases h
      exact ⟨(senders_receive _).trans sender, terminate⟩
    · cases h

theorem plain_step {s s' : Session} {a : Action} (P : Plain s) (ha : a.plain) (h : step s a = some s') :
    Plain s' :=
  have kept := kept_step P.sender P.terminate ha h
  ⟨inv_step P.inv h, winner_step P.inv P.winner h, kept.1, kept.2⟩

/-- A call more is possible as long as the sender is there, and it is the last one. -/
theorem Plain.call {s : Session} (P : Plain s) : step s (.call 0 .terminate) =
    some { s with calls := s.calls ++ [{ sender := 0, signal := .terminate }] } := by
  simp [step, Channel.hasSender, P.sender]

theorem length_step {s s' : Session} {a : Action} (ha : ∀ n sig, a ≠ .call n sig) (h : step s a = some s') :
    s'.calls.length = s.calls.length := by
  cases a with
  | call n sig => exact absurd rfl (ha n sig)
  | swap i | trySend i =>
    simp only [step] at h
    split at h
    · cases h
    · split at h
      · cases h
        exact List.length_set
      · cases h
  | clone n | dropSender n | dropReceiver | tryReceive | receive =>
    simp only [step] at h
    split at h
    · cases h
      rfl
    · cases h

end JsonService.Channel
