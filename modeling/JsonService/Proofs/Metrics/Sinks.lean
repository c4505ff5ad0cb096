import JsonService.Proofs.Metrics.Table

/-!
# Two sinks for counts

A count goes into a table in memory, and to the process-wide counters under its name with a label before it. The table
stands behind a lock, so a count in it is one atomic step. The process-wide counters stand behind a facade, and a count
there is two steps: the facade looks the counter up, which makes it if there is none, and then one is added to it. Here
any number of counts go to both sinks side by side, and their steps follow each other in any order.

**Facades.** Whatever exporter is installed behind a facade, all that is relied on is how a step changes the counters
that are known (`Facade`). The process-wide counters of this library are such a facade (`Facade.ofCounters`).

**Results.**
* `run_inTurn`: counts one after another are a run, whatever their names.
* `inv_step`, `inv_run`: the invariant. The table is that of the names it has counted, the names that are looked up are
  those that were added to and those that wait for it, and no other counter of the facade has changed.
* `sinks_agree`: what both sinks tell in every reachable state.
-/
namespace JsonService

/-! ## Facades -/

/-- The process-wide counters, behind whatever exporter is installed. -/
structure Facade (S : Type) where
  /-- The value of a counter, if it is known. -/
  count? : S → String → Option Nat
  /-- Looks a counter up. -/
  register : String → S → S
  /-- Adds one to a counter that was looked up. -/
  add : String → S → S
  /-- A counter that was looked up is known: with its value, or with zero. -/
  count?_register : ∀ (s : S) (name k : String),
    count? (register name s) k = if k = name then some ((count? s name).getD 0) else count? s k
  /-- A known counter has one more, as long as a word has room for it. -/
  count?_add : ∀ (s : S) (name : String) (n : Nat), count? s name = some n → n + 1 < 2 ^ 64 →
    count? (add name s) name = some (n + 1)
  count?_add_other : ∀ (s : S) (name k : String), k ≠ name → count? (add name s) k = count? s k

def Facade.get (F : Facade S) (s : S) (name : String) : Nat := (F.count? s name).getD 0

/-- The process-wide counters as a facade. -/
def Facade.ofCounters : Facade Counters where
  count? c name := Entries.get? name c
  register name c := Entries.insert name (c.get name) c
  add name c := c.increment name
  count?_register c name k := Entries.get?_insert name k _ c
  count?_add c name n known _ := by
    rw [Counters.increment, Entries.get?_insert, if_pos rfl, Counters.get, known]
    rfl
  count?_add_other c name k other := by rw [Counters.increment, Entries.get?_insert, if_neg other]

/-- The name that the process-wide counters have for a name. -/
def Recorder.labelled (r : Recorder) (name : String) : String := r.label ++ name

/-- However much names look alike with the label before them, they stay apart. -/
theorem Recorder.labelled_injective (r : Recorder) : Function.Injective r.labelled := fun _ _ same =>
  (String.append_right_inj r.label).mp same

/-- The process-wide counters after some names have been counted in turn. -/
def Recorder.record (r : Recorder) (names : List String) (wide : Counters) : Counters :=
  names.foldl (fun wide name => r.increment name wide) wide

theorem Recorder.record_eq (r : Recorder) (names : List String) (wide : Counters) :
    r.record names wide = wide.after (names.map r.labelled) := by
  rw [Counters.after, List.foldl_map]
  rfl

/-- A recorder's count in a facade, both steps one after the other. -/
def Facade.forward (F : Facade S) (r : Recorder) (name : String) (s : S) : S :=
  F.add (r.labelled name) (F.register (r.labelled name) s)

theorem Facade.forward_ofCounters (r : Recorder) (name : String) (wide : Counters) :
    ofCounters.forward r name wide = r.increment name wide := by
  show Counters.increment _ (Entries.insert _ _ wide) = wide.increment _
  rw [Counters.increment, Counters.get, Entries.get?_insert, if_pos rfl, Entries.insert_insert]
  rfl

/-! ## Runs -/

/-- Both sinks in use. -/
structure Sinks (S : Type) where
  table : Counters.Table := ∅
  facade : S
  /-- The names that were looked up and wait for their count. -/
  pending : List String := []

namespace Sinks

/-- One atomic step of a count. -/
inductive Action where
  /-- The table counts a name. -/
  | keep (name : String)
  /-- The facade looks up the counter for a name. -/
  | register (name : String)
  /-- One is added to that counter. -/
  | add (name : String)
  deriving DecidableEq, Repr

/-- The names that the table has counted, in order. -/
def kept (as : List Action) : List String :=
  as.filterMap fun
    | .keep name => some name
    | .register _ | .add _ => none

/-- The names whose counters the facade has looked up, in order. -/
def registered (as : List Action) : List String :=
  as.filterMap fun
    | .register name => some name
    | .keep _ | .add _ => none

/-- The names to whose counters the facade has added, in order. -/
def added (as : List Action) : List String :=
  as.filterMap fun
    | .add name => some name
    | .keep _ | .register _ => none

section
variable {S : Type} (F : Facade S) (r : Recorder)

def step (s : Sinks S) : Action → Option (Sinks S)
  | .keep name => some { s with table := s.table.increment name }
  | .register name =>
    some { s with facade := F.register (r.labelled name) s.facade, pending := name :: s.pending }
  | .add name =>
    if name ∈ s.pending then
      some { s with facade := F.add (r.labelled name) s.facade, pending := s.pending.erase name }
    else none

def run (s : Sinks S) : List Action → Option (Sinks S)
  | [] => some s
  | a :: rest => (step F r s a).bind fun s' => run s' rest

/-- The steps of counts one after another, each in both sinks. -/
def inTurn (names : List String) : List Action :=
  names.flatMap fun name => [.keep name, .register name, .add name]

theorem kept_inTurn (names : List String) : kept (inTurn names) = names := by
  induction names with
  | nil => rfl
  | cons name names ih => exact congrArg (name :: ·) ih

theorem added_inTurn (names : List String) : added (inTurn names) = names := by
  induction names with
  | nil => rfl
  | cons name names ih => exact congrArg (name :: ·) ih

theorem run_inTurn (names : List String) (s : Sinks S) :
    run F r s (inTurn names) = some { s with
      table := s.table.after names, facade := names.foldl (fun f name => F.forward r name f) s.facade } := by
  induction names generalizing s with
  | nil => rfl
  | cons name names ih =>
    show (if name ∈ name :: s.pending then some _ else none).bind _ = _
    rw [if_pos List.mem_cons_self, List.erase_cons_head]
    exact ih _

/-! ## The invariant -/

/-- What the steps so far have made of the sinks: the table has counted the names `counted`, and the facade has looked
up the names `looked` and added to the names `given`. -/
structure Inv (start : S) (counted looked given : List String) (s : Sinks S) : Prop where
  table : s.table = Counters.Table.after ∅ counted
  pending : looked.Perm (s.pending ++ given)
  passed : ∀ n ∈ looked, F.get start (r.labelled n) + given.count n < 2 ^ 64 →
    F.count? s.facade (r.labelled n) = some (F.get start (r.labelled n) + given.count n)
  untouched : ∀ k, (∀ n ∈ looked, k ≠ r.labelled n) → F.count? s.facade k = F.count? start k

end

section
variable {S : Type} {F : Facade S} {r : Recorder} {start : S} {counted looked given : List String} {s s' : Sinks S}

theorem inv_start : Inv F r start [] [] [] { facade := start } where
  table := rfl
  pending := .nil
  passed := by simp
  untouched _ _ := rfl

/-- A name that was not looked up was not added to. -/
theorem Inv.count_given (I : Inv F r start counted looked given s) {n : String} (h : n ∉ looked) :
    given.count n = 0 :=
  List.count_eq_zero_of_not_mem fun added => h (I.pending.mem_iff.mpr (List.mem_append_right _ added))

theorem inv_keep (I : Inv F r start counted looked given s) (name : String) :
    Inv F r start (counted ++ [name]) looked given { s with table := s.table.increment name } where
  table := by rw [Counters.Table.after_concat, I.table]
  pending := I.pending
  passed := I.passed
  untouched := I.untouched

/-- A counter that was looked up before keeps its value, and any other one starts with the value that it had. -/
theorem inv_register (I : Inv F r start counted looked given s) (name : String) :
    Inv F r start counted (looked ++ [name]) given
      { s with facade := F.register (r.labelled name) s.facade, pending := name :: s.pending } := by
  refine ⟨I.table, ?_, ?_, ?_⟩
  · exact (List.perm_append_singleton _ _).trans (I.pending.cons name)
  · intro n hn room
    rw [F.count?_register]
    by_cases before : n ∈ looked
    · have known := I.passed n before room
      split
      · next same => rw [← same, known]; rfl
      · exact known
    · have here : n = name := by simpa [before] using hn
      have new : F.count? s.facade (r.labelled n) = F.count? start (r.labelled n) :=
        I.untouched _ fun m hm same => before (r.labelled_injective same ▸ hm)
      rw [if_pos (congrArg _ here), ← here, new, I.count_given before]
      rfl
  · intro k other
    rw [F.count?_register, if_neg (other name (by simp))]
    exact I.untouched k fun n hn => other n (List.mem_append_left _ hn)

theorem inv_add (I : Inv F r start counted looked given s) {name : String} (waits : name ∈ s.pending) :
    Inv F r start counted looked (given ++ [name])
      { s with facade := F.add (r.labelled name) s.facade, pending := s.pending.erase name } := by
  have found : name ∈ looked := I.pending.mem_iff.mpr (List.mem_append_left _ waits)
  refine ⟨I.table, ?_, ?_, ?_⟩
  · rw [← List.append_assoc]
    have moved : (s.pending ++ given).Perm (s.pending.erase name ++ given ++ [name]) :=
      ((List.perm_cons_erase waits).append_right _).trans (List.perm_append_singleton _ _).symm
    exact I.pending.trans moved
  · intro n hn room
    rw [List.count_append, List.count_singleton] at room ⊢
    by_cases here : n = name
    · subst here
      simp only [beq_self_eq_true, if_true] at room ⊢
      -- counts only grow: a word that has room after this step had room before it
      have known := I.passed n hn (by omega)
      exact F.count?_add _ _ _ known (by omega)
    · have apart : r.labelled n ≠ r.labelled name := fun same => here (r.labelled_injective same)
      rw [if_neg (by simpa using Ne.symm here), Nat.add_zero] at room ⊢
      rw [F.count?_add_other _ _ _ apart]
      exact I.passed n hn room
  · intro k other
    rw [F.count?_add_other _ _ _ (other name found)]
    exact I.untouched k other

theorem inv_step {past : List Action} (I : Inv F r start (kept past) (registered past) (added past) s) {a : Action}
    (h : step F r s a = some s') :
    Inv F r start (kept (past ++ [a])) (registered (past ++ [a])) (added (past ++ [a])) s' := by
  cases a with
  | keep name =>
    cases h
    simpa [kept, registered, added] using inv_keep I name
  | register name =>
    cases h
    simpa [kept, registered, added] using inv_register I name
  | add name =>
    simp only [step] at h
    split at h
    · cases h
      simpa [kept, registered, added] using inv_add I ‹_›
    · cases h

theorem inv_run {past as : List Action} (I : Inv F r start (kept past) (registered past) (added past) s)
    (h : run F r s as = some s') :
    Inv F r start (kept (past ++ as)) (registered (past ++ as)) (added (past ++ as)) s' := by
  induction as generalizing past s with
  | nil => cases h; simpa using I
  | cons a as ih =>
    obtain ⟨t, first, rest⟩ := Option.bind_eq_some_iff.mp h
    simpa using ih (inv_step I first) rest

/-- When nothing waits, the facade has looked up the names that it has added to. -/
theorem Inv.mem_looked (I : Inv F r start counted looked given s) (idle : s.pending = []) {n : String} :
    n ∈ looked ↔ n ∈ given := by
  rw [I.pending.mem_iff, idle, List.nil_append]

/-- When nothing waits, the facade has what the process-wide counters have after the same counts. -/
theorem Inv.recorded (I : Inv F r start counted looked given s)
    (room : ∀ n, F.get start (r.labelled n) + given.count n < 2 ^ 64) (idle : s.pending = []) {wide : Counters}
    (alike : ∀ k, Entries.get? k wide = F.count? start k) (k : String) :
    F.count? s.facade k = Entries.get? k (r.record given wide) := by
  rw [Recorder.record_eq, Counters.get?_after]
  split
  · next has =>
    obtain ⟨n, hn, rfl⟩ := List.mem_map.mp has
    rw [I.passed n ((I.mem_looked idle).mpr hn) (room n), Counters.get, alike,
      List.count_map_of_injective _ _ r.labelled_injective]
    rfl
  · next lacks =>
    rw [alike]
    refine I.untouched k fun n hn same => lacks ?_
    exact List.mem_map.mpr ⟨n, (I.mem_looked idle).mp hn, same.symm⟩

/-- After the same counts in both sinks, a name of the table has as many counts more in the facade. -/
theorem Inv.agree (I : Inv F r start counted looked given s)
    (room : ∀ n, counted.count n < 2 ^ 64 ∧ F.get start (r.labelled n) + given.count n < 2 ^ 64)
    (idle : s.pending = []) (both : counted.Perm given) (n : String) :
    F.count? s.facade (r.labelled n) =
      ((s.table.lookup n).map fun word => F.get start (r.labelled n) + word.toNat).or
        (F.count? start (r.labelled n)) := by
  rw [I.table, Counters.Table.lookup_after]
  split
  · next has =>
    have found := (I.mem_looked idle).mpr (both.mem_iff.mp has)
    rw [I.passed n found (room n).2, Option.map_some, UInt64.toNat_ofNat_of_lt' (room n).1, both.count_eq]
    rfl
  · next lacks =>
    refine I.untouched _ fun m hm same => lacks ?_
    rw [r.labelled_injective same]
    exact both.mem_iff.mpr ((I.mem_looked idle).mp hm)

end

/-! ## What the sinks tell -/

/-- What both sinks tell after some steps. -/
structure Agree (F : Facade S) (r : Recorder) (start : S) (as : List Action) (s : Sinks S) : Prop where
  /-- In the table the value of a name is the number of its counts. -/
  get : ∀ n, (s.table.get n).toNat = (kept as).count n
  ascending : s.table.snapshot.Ascending
  /-- A snapshot lists the names that were counted, with the numbers of their counts, and no other name. -/
  snapshot : ∀ n word, (n, word) ∈ s.table.snapshot ↔ n ∈ kept as ∧ word.toNat = (kept as).count n
  /-- Counters without a bound have the same values after the same counts, -/
  value : ∀ n, (Counters.after [] (kept as)).get n = (s.table.get n).toNat
  /-- and they are the snapshot. -/
  counters : Counters.after [] (kept as) = s.table.snapshot.map fun e => (e.1, e.2.toNat)
  /-- A counter of the facade that was looked up has as many counts more as were added to it. -/
  passed : ∀ n ∈ registered as,
    F.count? s.facade (r.labelled n) = some (F.get start (r.labelled n) + (added as).count n)
  untouched : ∀ k, (∀ n ∈ registered as, k ≠ r.labelled n) → F.count? s.facade k = F.count? start k
  /-- When nothing waits, the facade has what the process-wide counters have after the same counts. -/
  recorded : s.pending = [] → ∀ wide : Counters, (∀ k, Entries.get? k wide = F.count? start k) →
    ∀ k, F.count? s.facade k = Entries.get? k (r.record (added as) wide)
  /-- When both sinks have had the same counts, a name has as many counts more in the facade as it has in the table. -/
  agree : s.pending = [] → (kept as).Perm (added as) → ∀ n,
    F.count? s.facade (r.labelled n) =
      ((s.table.lookup n).map fun word => F.get start (r.labelled n) + word.toNat).or (F.count? start (r.labelled n))
  /-- A facade that knew none of these names before has the names of the table then, with the same counts. -/
  same : s.pending = [] → (kept as).Perm (added as) → (∀ n, F.count? start (r.labelled n) = none) → ∀ n,
    F.count? s.facade (r.labelled n) = (s.table.lookup n).map UInt64.toNat

/-- **Both sinks agree.** Whatever label a recorder has and whatever exporter is behind the facade, counts of any names
can go to both sinks one after another. And in whatever order the steps of any number of counts follow each other, the
table and the facade tell the numbers of the counts of every name and nothing else, as long as the words have room. -/
theorem sinks_agree (F : Facade S) (r : Recorder) (start : S) :
    (∀ names, ∃ s, run F r { facade := start } (inTurn names) = some s ∧ s.pending = [] ∧
      kept (inTurn names) = names ∧ added (inTurn names) = names) ∧
    ∀ (as : List Action) (s : Sinks S), run F r { facade := start } as = some s →
      (∀ n, (kept as).count n < 2 ^ 64 ∧ F.get start (r.labelled n) + (added as).count n < 2 ^ 64) →
      Agree F r start as s := by
  refine ⟨fun names => ⟨_, run_inTurn F r names _, rfl, kept_inTurn names, added_inTurn names⟩, ?_⟩
  intro as s ran room
  have started : Inv F r start (kept []) (registered []) (added []) { facade := start } := inv_start
  have I := inv_run started ran
  rw [List.nil_append] at I
  have get : ∀ n, (s.table.get n).toNat = (kept as).count n := fun n => by
    rw [I.table, Counters.Table.get_after (room n).1]
  refine ⟨get, Counters.Table.ascending_snapshot _, fun n word => ?_, fun n => ?_, ?_,
    fun n hn => I.passed n hn (room n).2, I.untouched, fun idle wide alike => ?_, I.agree room,
    fun idle both fresh n => ?_⟩
  · rw [I.table]
    exact Counters.Table.mem_snapshot_after (room n).1 word
  · rw [get, Counters.get_after]
    exact Nat.zero_add _
  · rw [I.table, Counters.Table.snapshot_after fun n => (room n).1]
  · exact I.recorded (fun n => (room n).2) idle alike
  · rw [I.agree room idle both, Facade.get, fresh, Option.or_none]
    congr 1
    funext word
    exact Nat.zero_add _

/-- Two threads count `b`, and one of them then counts `ab`, which is also the name that `b` has with a label `a`. -/
def lookalikes : List Action :=
  [.register "b", .keep "b", .register "b", .keep "b", .register "ab", .add "b", .keep "ab", .add "ab", .add "b"]

theorem sinks_agree_lookalikes : ∃ s,
    run .ofCounters { label := "a" } { facade := [("b", 7)] } lookalikes = some s ∧
      (∀ n, (kept lookalikes).count n < 2 ^ 64 ∧
        Facade.get .ofCounters [("b", 7)] ("a" ++ n) + (added lookalikes).count n < 2 ^ 64) ∧
      s.table.snapshot = [("ab", 1), ("b", 2)] ∧ s.facade = [("aab", 1), ("ab", 2), ("b", 7)] ∧
      Agree .ofCounters { label := "a" } [("b", 7)] lookalikes s := by
  have told : (run .ofCounters { label := "a" } { facade := [("b", 7)] } lookalikes).map (fun s =>
      (s.table.snapshot, s.facade)) = some ([("ab", 1), ("b", 2)], [("aab", 1), ("ab", 2), ("b", 7)]) := by
    decide +kernel
  obtain ⟨s, ran, seen⟩ := Option.map_eq_some_iff.mp told
  obtain ⟨snapshot, facade⟩ := Prod.mk.inj seen
  have before : ∀ k, Facade.get .ofCounters [("b", 7)] k ≤ 7 := fun k => by
    show (if "b" = k then some 7 else none).getD 0 ≤ 7
    split <;> decide
  have room : ∀ n, (kept lookalikes).count n < 2 ^ 64 ∧
      Facade.get .ofCounters [("b", 7)] ("a" ++ n) + (added lookalikes).count n < 2 ^ 64 := fun n => by
    have inTable : (kept lookalikes).count n ≤ 3 := List.count_le_length
    have inFacade : (added lookalikes).count n ≤ 3 := List.count_le_length
    have := before ("a" ++ n)
    omega
  exact ⟨s, ran, room, snapshot, facade, (sinks_agree _ _ _).2 _ s ran room⟩

end Sinks

end JsonService
