import JsonService.Shutdown

/-!
# One signal for the whole life of a channel

`Channel.signal` is two atomic steps, the swap of the latch and the try to send, and other users of the
channel may act between them. Here any number of calls to signal run side by side with clones and drops of
senders, with the drop of the receiver and with its tries and polls, in any order.

**Sessions.** A `Session` is the channel, every call to signal there has been with its progress, and every
signal the receiver has obtained. `step` takes one atomic action; `none` means that the action is not
possible there (the sender, the receiver or the call it needs is not there, or the call is elsewhere). A
sender may be dropped while a call on it is under way, which allows more runs than there are.

**Results.**
* `run_signal`: a call whose two steps follow each other does to the channel what `Channel.signal` does, and
  returns the same.
* `step_cases`: what a step can do.
* `inv_step`, `inv_run`: the invariant. The latch is closed when a call has swapped it, one call at most has
  found it open, and what is queued or was received is one signal at most, that of the call that returned true.
* `at_most_one_signal`: what senders and the receiver may rely on in every reachable state.
* `signal_once`: what `Channel.signal` itself returns and leaves on a channel in use.
-/
namespace JsonService.Channel

/-- How far a call to signal has come. -/
inductive Progress where
  /-- It has not swapped the latch yet. -/
  | begun
  /-- It found the latch closed and has returned false. -/
  | lost
  /-- It has closed the latch and is about to send. -/
  | won
  /-- It has tried to send and has returned whether it could. -/
  | tried (sent : Bool)
  deriving DecidableEq, Repr

structure SignalCall where
  sender : Nat
  signal : Signal
  progress : Progress := .begun
  deriving DecidableEq, Repr

namespace SignalCall

/-- Whether a call has done its swap. -/
def hasSwapped (c : SignalCall) : Bool := c.progress ≠ .begun

/-- Whether it was this call that closed the latch. -/
def passed (c : SignalCall) : Bool :=
  match c.progress with
  | .won | .tried _ => true
  | .begun | .lost => false

/-- What a call has returned, once it has. -/
def returned (c : SignalCall) : Option Bool :=
  match c.progress with
  | .begun | .won => none
  | .lost => some false
  | .tried sent => some sent

end SignalCall

/-- A channel in use. -/
structure Session where
  channel : Channel := {}
  calls : List SignalCall := []
  /-- Every signal that the receiver has obtained, in order. -/
  received : List Signal := []
  deriving DecidableEq, Repr

/-- One atomic action on a channel. Calls are numbered in the order in which they begin. -/
inductive Action where
  | call (sender : Nat) (signal : Signal)
  | swap (call : Nat)
  | trySend (call : Nat)
  | clone (sender : Nat)
  | dropSender (sender : Nat)
  | dropReceiver
  | tryReceive
  /-- One poll of a receiver that waits. -/
  | receive
  deriving DecidableEq, Repr

def Received.signal? : Received → Option Signal
  | .signal s => some s
  | .closed | .pending => none

def step (s : Session) : Action → Option Session
  | .call sender signal =>
    if s.channel.hasSender sender then some { s with calls := s.calls ++ [{ sender, signal }] } else none
  | .swap i =>
    match s.calls[i]? with
    | none => none
    | some c =>
      if c.progress = .begun then
        let (was, channel) := s.channel.swap
        some { s with channel, calls := s.calls.set i { c with progress := if was then .lost else .won } }
      else none
  | .trySend i =>
    match s.calls[i]? with
    | none => none
    | some c =>
      if c.progress = .won then
        let (sent, channel) := s.channel.trySend c.signal
        some { s with channel, calls := s.calls.set i { c with progress := .tried sent } }
      else none
  | .clone n => if s.channel.hasSender n then some { s with channel := s.channel.clone.2 } else none
  | .dropSender n =>
    if s.channel.hasSender n then some { s with channel := s.channel.dropSender n } else none
  | .dropReceiver =>
    if s.channel.receiving then some { s with channel := s.channel.dropReceiver } else none
  | .tryReceive =>
    if s.channel.receiving then
      let (got, channel) := s.channel.tryReceive
      some { s with channel, received := s.received ++ got.toList }
    else none
  | .receive =>
    if s.channel.receiving then
      let (got, channel) := s.channel.receive
      some { s with channel, received := s.received ++ got.signal?.toList }
    else none

def run (s : Session) : List Action → Option Session
  | [] => some s
  | a :: rest => (step s a).bind fun s' => run s' rest

/-- The actions of a call whose two steps follow each other. -/
def Session.alone (s : Session) (sender : Nat) (sig : Signal) : List Action :=
  .call sender sig :: .swap s.calls.length :: if s.channel.fired then [] else [.trySend s.calls.length]

/-- A call whose two steps follow each other is `Channel.signal`. -/
theorem run_signal (s : Session) (sender : Nat) (sig : Signal) (h : s.channel.hasSender sender = true) :
    ∃ c : SignalCall, c.returned = some (s.channel.signal sig).1 ∧
      run s (s.alone sender sig) =
        some { s with channel := (s.channel.signal sig).2, calls := s.calls ++ [c] } := by
  cases hf : s.channel.fired with
  | true =>
    refine ⟨{ sender, signal := sig, progress := .lost }, ?_, ?_⟩
    · simp [signal, swap, hf, SignalCall.returned]
    · simp [Session.alone, run, step, h, signal, swap, hf]
  | false =>
    refine ⟨{ sender, signal := sig, progress := .tried (s.channel.signal sig).1 }, ?_, ?_⟩
    · simp [SignalCall.returned]
    · simp [Session.alone, run, step, h, signal, swap, hf]

/-! ## The calls with one of them further on -/

section
variable {calls : List SignalCall} {i : Nat} {c d : SignalCall}

theorem getElem?_set_call {j : Nat} {e : SignalCall} (h : (calls.set i d)[j]? = some e) :
    (j = i ∧ e = d) ∨ (j ≠ i ∧ calls[j]? = some e) := by
  rw [List.getElem?_set] at h
  split at h
  · rename_i hij
    split at h
    · simp only [Option.some.injEq] at h; exact Or.inl ⟨hij.symm, h.symm⟩
    · cases h
  · rename_i hij
    exact Or.inr ⟨fun e => hij e.symm, h⟩

theorem mem_set_call (hc : calls[i]? = some c) {e : SignalCall} (he : e ∈ calls) (hne : e ≠ c) :
    e ∈ calls.set i d := by
  obtain ⟨j, hj⟩ := List.getElem?_of_mem he
  have hij : i ≠ j := by
    intro heq
    subst heq
    rw [hc] at hj
    simp only [Option.some.injEq] at hj
    exact hne hj.symm
  exact List.mem_of_getElem? (by rw [List.getElem?_set_ne hij]; exact hj)

theorem self_mem_set_call (hc : calls[i]? = some c) : d ∈ calls.set i d :=
  List.mem_set (List.getElem?_eq_some_iff.mp hc).1 d

end

/-! ## What a step can do -/

/-- Every signal that is on its way or has arrived. -/
def Session.carried (s : Session) : List Signal := s.channel.queued.toList ++ s.received

/-- A step that is no part of a call to signal: what is carried moves from the queue to the receiver, or the
receiver is dropped with what is queued for it. -/
structure Moves (s s' : Session) : Prop where
  calls : s'.calls = s.calls
  fired : s'.channel.fired = s.channel.fired
  carried : (s'.carried.Perm s.carried ∧ s'.channel.receiving = s.channel.receiving) ∨
    (s'.carried.Sublist s.carried ∧ s'.channel.receiving = false)

theorem fired_trySend (c : Channel) (sig : Signal) : (c.trySend sig).2.fired = c.fired := by
  unfold trySend
  split <;> rfl

theorem moves_tryReceive (s : Session) :
    Moves s { s with channel := s.channel.tryReceive.2,
                     received := s.received ++ s.channel.tryReceive.1.toList } := by
  refine ⟨rfl, rfl, Or.inl ⟨?_, rfl⟩⟩
  simp only [Session.carried, tryReceive, Option.toList_none, List.nil_append]
  exact List.perm_append_comm

theorem moves_receive (s : Session) :
    Moves s { s with channel := s.channel.receive.2,
                     received := s.received ++ s.channel.receive.1.signal?.toList } := by
  unfold receive
  cases hq : s.channel.queued with
  | some sig =>
    refine ⟨rfl, rfl, Or.inl ⟨?_, rfl⟩⟩
    simp only [Session.carried, hq, Received.signal?, Option.toList_none, List.nil_append]
    exact List.perm_append_comm
  | none =>
    refine ⟨rfl, rfl, Or.inl ⟨?_, rfl⟩⟩
    have : (if s.channel.senders.any id = true then Received.pending else .closed).signal? = none := by
      split <;> rfl
    simp only [Session.carried, this, Option.toList_none, List.append_nil]
    exact List.Perm.refl _

/-- A step begins a call, is one of the two steps of a call, or is no part of one. -/
theorem step_cases {s s' : Session} {a : Action} (h : step s a = some s') :
    (∃ sender signal, s' = { s with calls := s.calls ++ [{ sender, signal }] }) ∨
    (∃ i c, s.calls[i]? = some c ∧ c.progress = .begun ∧
      s' = { s with channel := s.channel.swap.2,
                    calls := s.calls.set i { c with progress := if s.channel.swap.1 then .lost else .won } }) ∨
    (∃ i c, s.calls[i]? = some c ∧ c.progress = .won ∧
      s' = { s with channel := (s.channel.trySend c.signal).2,
                    calls := s.calls.set i { c with progress := .tried (s.channel.trySend c.signal).1 } }) ∨
    Moves s s' := by
  cases a with
  | call n sig =>
    simp only [step] at h
    split at h
    · cases h; exact Or.inl ⟨n, sig, rfl⟩
    · cases h
  | swap i =>
    simp only [step] at h
    split at h
    · cases h
    · rename_i c hc
      split at h
      · cases h; exact Or.inr (Or.inl ⟨i, c, hc, ‹_›, rfl⟩)
      · cases h
  | trySend i =>
    simp only [step] at h
    split at h
    · cases h
    · rename_i c hc
      split at h
      · cases h; exact Or.inr (Or.inr (Or.inl ⟨i, c, hc, ‹_›, rfl⟩))
      · cases h
  | clone n =>
    simp only [step] at h
    split at h
    · cases h; exact Or.inr (Or.inr (Or.inr ⟨rfl, rfl, Or.inl ⟨List.Perm.refl _, rfl⟩⟩))
    · cases h
  | dropSender n =>
    simp only [step] at h
    split at h
    · cases h; exact Or.inr (Or.inr (Or.inr ⟨rfl, rfl, Or.inl ⟨List.Perm.refl _, rfl⟩⟩))
    · cases h
  | dropReceiver =>
    simp only [step] at h
    split at h
    · cases h
      exact Or.inr (Or.inr (Or.inr ⟨rfl, rfl, Or.inr ⟨List.sublist_append_right _ _, rfl⟩⟩))
    · cases h
  | tryReceive =>
    simp only [step] at h
    split at h
    · cases h; exact Or.inr (Or.inr (Or.inr (moves_tryReceive s)))
    · cases h
  | receive =>
    simp only [step] at h
    split at h
    · cases h; exact Or.inr (Or.inr (Or.inr (moves_receive s)))
    · cases h

/-! ## The invariant -/

structure Inv (s : Session) : Prop where
  latch : s.channel.fired = true ↔ ∃ c ∈ s.calls, c.hasSwapped = true
  winner : ∀ (i j : Nat) (c d : SignalCall), s.calls[i]? = some c → s.calls[j]? = some d →
    c.passed = true → d.passed = true → i = j
  sent : ∀ sig ∈ s.carried, ∃ c ∈ s.calls, c.progress = .tried true ∧ c.signal = sig
  single : s.carried.length ≤ 1
  kept : ∀ c ∈ s.calls, c.progress = .tried true → s.channel.receiving = true → c.signal ∈ s.carried

theorem inv_init : Inv {} := by
  refine ⟨?_, ?_, ?_, ?_, ?_⟩ <;> simp [Session.carried]

theorem passed_hasSwapped {c : SignalCall} (h : c.passed = true) : c.hasSwapped = true := by
  unfold SignalCall.passed at h
  unfold SignalCall.hasSwapped
  split at h <;> simp_all

theorem Inv.carried_nil {s : Session} (I : Inv s) {c : SignalCall} (hc : c ∈ s.calls)
    (hw : c.progress = .won) : s.carried = [] := by
  apply List.eq_nil_iff_forall_not_mem.mpr
  intro sig hs
  obtain ⟨e, he, hp, -⟩ := I.sent sig hs
  obtain ⟨i, hi⟩ := List.getElem?_of_mem hc
  obtain ⟨j, hj⟩ := List.getElem?_of_mem he
  have hij := I.winner i j c e hi hj (by simp [SignalCall.passed, hw]) (by simp [SignalCall.passed, hp])
  subst hij
  rw [hi] at hj
  simp only [Option.some.injEq] at hj
  subst hj
  rw [hw] at hp
  cases hp

theorem inv_call {s : Session} (I : Inv s) (sender : Nat) (sig : Signal) :
    Inv { s with calls := s.calls ++ [{ sender, signal := sig }] } := by
  obtain ⟨latch, winner, sent, single, kept⟩ := I
  have old : ∀ (i : Nat) (c : SignalCall), (s.calls ++ [{ sender, signal := sig }])[i]? = some c → c.passed = true →
      s.calls[i]? = some c := by
    intro i c h hp
    rw [List.getElem?_append] at h
    split at h
    · exact h
    · have := List.mem_of_getElem? h
      simp only [List.mem_singleton] at this
      subst this
      cases hp
  refine ⟨?_, ?_, ?_, single, ?_⟩
  · simp [latch, or_and_right, exists_or, SignalCall.hasSwapped]
  · intro i j c d hi hj hc hd
    exact winner i j c d (old i c hi hc) (old j d hj hd) hc hd
  · intro x hx
    obtain ⟨c, hc, h⟩ := sent x hx
    exact ⟨c, List.mem_append_left _ hc, h⟩
  · intro c hc hp hr
    rcases List.mem_append.mp hc with hc | hc
    · exact kept c hc hp hr
    · simp only [List.mem_singleton] at hc
      subst hc
      cases hp

theorem inv_swap {s : Session} (I : Inv s) {i : Nat} {c : SignalCall} (hc : s.calls[i]? = some c)
    (hb : c.progress = .begun) :
    Inv { s with channel := s.channel.swap.2,
                 calls := s.calls.set i { c with progress := if s.channel.swap.1 then .lost else .won } } := by
  obtain ⟨latch, winner, sent, single, kept⟩ := I
  have hne : ∀ e : SignalCall, e.progress = .tried true → e ≠ c := by
    intro e he heq
    subst heq
    rw [hb] at he
    cases he
  refine ⟨?_, ?_, ?_, single, ?_⟩
  · refine ⟨fun _ => ⟨_, self_mem_set_call hc, ?_⟩, fun _ => rfl⟩
    unfold SignalCall.hasSwapped
    split <;> simp
  · -- a call that passes now found the latch open, so no call had swapped it before
    have fresh : ∀ (j : Nat) (e : SignalCall), s.calls[j]? = some e → e.passed = true → s.channel.fired = true :=
      fun j e he hp => latch.mpr ⟨e, List.mem_of_getElem? he, passed_hasSwapped hp⟩
    intro j k d e hj hk hd he
    rcases getElem?_set_call hj with ⟨rfl, rfl⟩ | ⟨-, hj'⟩ <;>
      rcases getElem?_set_call hk with ⟨rfl, rfl⟩ | ⟨-, hk'⟩
    · rfl
    · simp [swap, fresh k e hk' he, SignalCall.passed] at hd
    · simp [swap, fresh j d hj' hd, SignalCall.passed] at he
    · exact winner j k d e hj' hk' hd he
  · intro x hx
    obtain ⟨e, he, hp, hs⟩ := sent x hx
    exact ⟨e, mem_set_call hc he (hne e hp), hp, hs⟩
  · intro e he hp hr
    rcases List.mem_or_eq_of_mem_set he with he | rfl
    · exact kept e he hp hr
    · exfalso
      simp only at hp
      split at hp <;> cases hp

/-- A call tries to send. The queue has room, so it sends if the receiver lives. -/
theorem inv_trySend {s : Session} (I : Inv s) {i : Nat} {c : SignalCall} (hc : s.calls[i]? = some c)
    (hw : c.progress = .won) :
    Inv { s with channel := (s.channel.trySend c.signal).2,
                 calls := s.calls.set i { c with progress := .tried (s.channel.trySend c.signal).1 } } := by
  have hnil := I.carried_nil (List.mem_of_getElem? hc) hw
  obtain ⟨latch, winner, sent, single, kept⟩ := I
  simp only [Session.carried, List.append_eq_nil_iff, Option.toList_eq_nil_iff] at hnil
  have none_sent : ∀ e ∈ s.calls, e.progress = .tried true → s.channel.receiving = false := by
    intro e he hp
    cases hr : s.channel.receiving with
    | false => rfl
    | true =>
      have := kept e he hp hr
      simp [Session.carried, hnil.1, hnil.2] at this
  refine ⟨?_, ?_, ?_, ?_, ?_⟩
  · simp only [fired_trySend]
    refine ⟨fun _ => ⟨_, self_mem_set_call hc, by simp [SignalCall.hasSwapped]⟩, fun _ => ?_⟩
    exact latch.mpr ⟨c, List.mem_of_getElem? hc, by simp [SignalCall.hasSwapped, hw]⟩
  · have hcp : c.passed = true := by simp [SignalCall.passed, hw]
    intro j k d e hj hk hd he
    rcases getElem?_set_call hj with ⟨rfl, rfl⟩ | ⟨-, hj'⟩ <;>
      rcases getElem?_set_call hk with ⟨rfl, rfl⟩ | ⟨-, hk'⟩
    · rfl
    · exact winner j k c e hc hk' hcp he
    · exact winner j k d c hj' hc hd hcp
    · exact winner j k d e hj' hk' hd he
  · intro x hx
    cases hr : s.channel.receiving with
    | false => simp [Session.carried, trySend, hr, hnil.1, hnil.2] at hx
    | true =>
      simp only [Session.carried, trySend, hr, hnil.1, hnil.2, Option.isNone_none, and_self, if_true,
        Option.toList_some, List.append_nil, List.mem_singleton] at hx
      exact ⟨_, self_mem_set_call hc, by simp [trySend, hr, hnil.1], hx.symm⟩
  · cases hr : s.channel.receiving <;> simp [Session.carried, trySend, hr, hnil.1, hnil.2]
  · intro e he hp hr
    have hr' : s.channel.receiving = true := by
      simp only [trySend] at hr
      split at hr <;> exact hr
    rcases List.mem_or_eq_of_mem_set he with he | rfl
    · rw [none_sent e he hp] at hr'
      cases hr'
    · simp [Session.carried, trySend, hr', hnil.1]

/-- A signal may move from the queue to the receiver, or be dropped with it. -/
theorem inv_moves {s s' : Session} (I : Inv s) (h : Moves s s') : Inv s' := by
  obtain ⟨latch, winner, sent, single, kept⟩ := I
  obtain ⟨hc, hf, hm⟩ := h
  refine ⟨by rw [hc, hf]; exact latch, by rw [hc]; exact winner, ?_, ?_, ?_⟩
  · intro x hx
    rw [hc]
    rcases hm with ⟨hm, -⟩ | ⟨hm, -⟩
    · exact sent x (hm.mem_iff.mp hx)
    · exact sent x (hm.mem hx)
  · rcases hm with ⟨hm, -⟩ | ⟨hm, -⟩
    · rw [hm.length_eq]; exact single
    · exact Nat.le_trans hm.length_le single
  · intro c hcm hp hl
    rw [hc] at hcm
    rcases hm with ⟨hm, hr⟩ | ⟨-, hr⟩
    · exact hm.mem_iff.mpr (kept c hcm hp (hr ▸ hl))
    · rw [hr] at hl; cases hl

theorem inv_step {s s' : Session} {a : Action} (I : Inv s) (h : step s a = some s') : Inv s' := by
  rcases step_cases h with ⟨n, sig, rfl⟩ | ⟨i, c, hc, hb, rfl⟩ | ⟨i, c, hc, hw, rfl⟩ | hm
  · exact inv_call I n sig
  · exact inv_swap I hc hb
  · exact inv_trySend I hc hw
  · exact inv_moves I hm

theorem inv_run {s s' : Session} {as : List Action} (I : Inv s) (h : run s as = some s') : Inv s' := by
  induction as generalizing s with
  | nil => simp only [run, Option.some.injEq] at h; subst h; exact I
  | cons a as ih =>
    simp only [run, Option.bind_eq_some_iff] at h
    obtain ⟨s₁, h₁, h₂⟩ := h
    exact ih (inv_step I h₁) h₂

/-! ## What the latch and the receiver show -/

/-- No action opens the latch again. -/
theorem fired_step {s s' : Session} {a : Action} (h : step s a = some s') (hf : s.channel.fired = true) :
    s'.channel.fired = true := by
  rcases step_cases h with ⟨n, sig, rfl⟩ | ⟨i, c, -, -, rfl⟩ | ⟨i, c, -, -, rfl⟩ | hm
  · exact hf
  · rfl
  · simp only [fired_trySend]; exact hf
  · rw [hm.fired]; exact hf

theorem fired_run {s s' : Session} {as : List Action} (h : run s as = some s')
    (hf : s.channel.fired = true) : s'.channel.fired = true := by
  induction as generalizing s with
  | nil => simp only [run, Option.some.injEq] at h; subst h; exact hf
  | cons a as ih =>
    simp only [run, Option.bind_eq_some_iff] at h
    obtain ⟨s₁, h₁, h₂⟩ := h
    exact ih h₂ (fired_step h₁ hf)

/-- A poll reports the end only when no sender is left and nothing is queued. -/
theorem receive_closed_iff (c : Channel) :
    c.receive.1 = .closed ↔ (∀ n, c.hasSender n = false) ∧ c.queued = none := by
  unfold receive
  cases hq : c.queued with
  | some sig => simp
  | none =>
    simp only [and_true]
    have gone : (∀ n, c.hasSender n = false) ↔ c.senders.any id = false := by
      simp only [hasSender, List.any_eq_false, id_eq, Bool.not_eq_true, List.getD_eq_getElem?_getD]
      refine ⟨fun h b hb => ?_, fun h n => ?_⟩
      · obtain ⟨n, hn⟩ := List.getElem?_of_mem hb
        simpa [hn] using h n
      · cases hn : c.senders[n]? with
        | none => rfl
        | some b => exact h b (List.mem_of_getElem? hn)
    rw [gone]
    cases c.senders.any id <;> simp

/-! ## Calls in one go -/

theorem hasSwapped_of_returned {c : SignalCall} {first : Bool} (h : c.returned = some first) :
    c.hasSwapped = true := by
  rw [SignalCall.hasSwapped, decide_eq_true_eq]
  intro begun
  rw [SignalCall.returned, begun] at h
  cases h

theorem fired_signal (c : Channel) (sig : Signal) : (c.signal sig).2.fired = true := by
  cases hf : c.fired <;> simp [signal, swap, hf, fired_trySend]

theorem signal_eq_true (c : Channel) (sig : Signal) :
    (c.signal sig).1 = true ↔ c.fired = false ∧ c.receiving = true ∧ c.queued = none := by
  cases hf : c.fired with
  | true => simp [signal, swap, hf]
  | false =>
    simp only [signal, swap, hf, trySend, Option.isNone_iff_eq_none]
    by_cases room : c.receiving = true ∧ c.queued = none <;> simp [room]

theorem queued_signal {c : Channel} {sig : Signal} (first : (c.signal sig).1 = true) :
    (c.signal sig).2.queued = some sig := by
  obtain ⟨fired, room⟩ := (signal_eq_true c sig).mp first
  simp [signal, swap, fired, trySend, room]

/-- While no call has swapped the latch, it is open and nothing has been sent. -/
theorem Inv.untouched {s : Session} (I : Inv s) (unswapped : ∀ c ∈ s.calls, c.hasSwapped = false) :
    s.channel.fired = false ∧ s.carried = [] := by
  constructor
  · rw [Bool.eq_false_iff]
    intro hf
    obtain ⟨c, hc, swapped⟩ := I.latch.mp hf
    rw [unswapped c hc] at swapped
    cases swapped
  · rw [List.eq_nil_iff_forall_not_mem]
    intro sig hs
    obtain ⟨c, hc, tried, -⟩ := I.sent sig hs
    have swapped := unswapped c hc
    simp [SignalCall.hasSwapped, tried] at swapped

/-- **`Channel.signal`.** On a channel in use, a call that nothing comes between returns true just if no call has
swapped the latch before and the receiver is there, and then its signal is queued. It is one of the calls of the run,
and whatever is done with the channel afterwards, no later call returns true. -/
theorem signal_once (as : List Action) (s : Session) (h : run {} as = some s) (sender : Nat)
    (there : s.channel.hasSender sender = true) (sig : Signal) :
    ((s.channel.signal sig).1 = true ↔ (∀ c ∈ s.calls, c.hasSwapped = false) ∧ s.channel.receiving = true) ∧
    ((s.channel.signal sig).1 = true → (s.channel.signal sig).2.queued = some sig) ∧
    ∃ s', run s (s.alone sender sig) = some s' ∧ s'.channel = (s.channel.signal sig).2 ∧
      (∃ c : SignalCall, s'.calls = s.calls ++ [c] ∧ c.returned = some (s.channel.signal sig).1) ∧
      ∀ as' s'', run s' as' = some s'' → ∀ sig', (s''.channel.signal sig').1 = false := by
  have I := inv_run inv_init h
  obtain ⟨c, returned, ran⟩ := run_signal s sender sig there
  refine ⟨?_, queued_signal, _, ran, rfl, ⟨c, rfl, returned⟩, fun as' s'' later sig' => ?_⟩
  · rw [signal_eq_true]
    constructor
    · rintro ⟨fired, receiving, -⟩
      refine ⟨fun c hc => ?_, receiving⟩
      rw [Bool.eq_false_iff]
      intro swapped
      rw [I.latch.mpr ⟨c, hc, swapped⟩] at fired
      cases fired
    · rintro ⟨unswapped, receiving⟩
      obtain ⟨fired, carried⟩ := I.untouched unswapped
      simp only [Session.carried, List.append_eq_nil_iff, Option.toList_eq_nil_iff] at carried
      exact ⟨fired, receiving, carried.1⟩
  · have fired : s''.channel.fired = true := fired_run later (fired_signal s.channel sig)
    rw [Bool.eq_false_iff, Ne, signal_eq_true, fired]
    exact fun open_ => nomatch open_.1

/-! ## The guarantees -/

/-- What senders and the receiver may rely on. -/
structure Guarantees (s : Session) : Prop where
  /-- One call at most has closed the latch. -/
  one_passes : ∀ (i j : Nat) (c d : SignalCall), s.calls[i]? = some c → s.calls[j]? = some d →
    c.passed = true → d.passed = true → i = j
  /-- A call that is about to send finds room in the queue. -/
  room : ∀ c ∈ s.calls, c.progress = .won → s.channel.queued = none
  /-- One call at most returns true. -/
  one_true : ∀ (i j : Nat) (c d : SignalCall), s.calls[i]? = some c → s.calls[j]? = some d →
    c.returned = some true → d.returned = some true → i = j
  /-- The receiver has obtained one signal at most. -/
  one_received : s.received.length ≤ 1
  /-- It is the one of the call that closed the latch. -/
  received_passed : ∀ sig ∈ s.received, ∃ c ∈ s.calls, c.passed = true ∧ c.signal = sig
  /-- A signal that was sent is queued or received. -/
  not_lost : ∀ c ∈ s.calls, c.returned = some true → s.channel.receiving = true →
    s.channel.queued = some c.signal ∨ s.received = [c.signal]
  /-- The latch tells whether a call has swapped it. -/
  signalled_iff : s.channel.isSignalled = true ↔ ∃ c ∈ s.calls, c.hasSwapped = true
  /-- And it never opens again. -/
  signalled_stays : ∀ (as : List Action) (s' : Session), run s as = some s' →
    s.channel.isSignalled = true → s'.channel.isSignalled = true
  /-- The end is reported only when no sender is left and nothing is queued. -/
  closed_iff : s.channel.receive.1 = .closed ↔ (∀ n, s.channel.hasSender n = false) ∧ s.channel.queued = none
  /-- So a signal that was sent is received, whichever senders are left. -/
  arrives : ∀ c ∈ s.calls, c.returned = some true → s.channel.receiving = true → s.received = [] →
    s.channel.receive.1 = .signal c.signal ∧ s.channel.tryReceive.1 = some c.signal

theorem returned_true_iff {c : SignalCall} : c.returned = some true ↔ c.progress = .tried true := by
  unfold SignalCall.returned
  split <;> simp_all

theorem Inv.not_lost {s : Session} (I : Inv s) {c : SignalCall} (hc : c ∈ s.calls)
    (ht : c.returned = some true) (hr : s.channel.receiving = true) :
    s.channel.queued = some c.signal ∨ s.received = [c.signal] := by
  have hmem := I.kept c hc (returned_true_iff.mp ht) hr
  have hone := I.single
  simp only [Session.carried, List.mem_append, Option.mem_toList, List.length_append] at hmem hone
  rcases hmem with hq | hx
  · exact Or.inl hq
  · right
    have hpos := List.length_pos_of_mem hx
    have hlen : s.received.length = 1 := by omega
    obtain ⟨y, hy⟩ := List.length_eq_one_iff.mp hlen
    rw [hy, List.mem_singleton] at hx
    rw [hy, hx]

/-- In every order of actions on a channel at most one signal goes through it. -/
theorem at_most_one_signal (as : List Action) (s : Session) (h : run {} as = some s) : Guarantees s := by
  have I := inv_run inv_init h
  refine ⟨I.winner, ?_, ?_, ?_, ?_, fun c hc ht hr => I.not_lost hc ht hr, I.latch,
    fun as' s' h' hf => fired_run h' hf, receive_closed_iff s.channel, ?_⟩
  · intro c hc hw
    have := I.carried_nil hc hw
    simp only [Session.carried, List.append_eq_nil_iff, Option.toList_eq_nil_iff] at this
    exact this.1
  · intro i j c d hi hj hc hd
    exact I.winner i j c d hi hj (by simp [SignalCall.passed, returned_true_iff.mp hc])
      (by simp [SignalCall.passed, returned_true_iff.mp hd])
  · have := I.single
    simp only [Session.carried, List.length_append] at this
    omega
  · intro sig hs
    obtain ⟨c, hc, hp, rfl⟩ := I.sent sig (List.mem_append_right _ hs)
    exact ⟨c, hc, by simp [SignalCall.passed, hp], rfl⟩
  · intro c hc ht hr hn
    have hq : s.channel.queued = some c.signal := by
      rcases I.not_lost hc ht hr with hq | hx
      · exact hq
      · rw [hn] at hx; cases hx
    simp [receive, tryReceive, hq]

def race : List Action :=
  [.clone 0, .call 0 .interrupt, .call 1 .terminate, .swap 1, .swap 0, .trySend 1, .dropSender 0,
    .dropSender 1, .receive]

def raced : Session where
  channel := { fired := true, queued := none, senders := [false, false], receiving := true }
  calls := [⟨0, .interrupt, .lost⟩, ⟨1, .terminate, .tried true⟩]
  received := [.terminate]

theorem at_most_one_signal_race : run {} race = some raced ∧ Guarantees raced := by
  have h : run {} race = some raced := by decide
  exact ⟨h, at_most_one_signal race raced h⟩

end JsonService.Channel
