import JsonService.Metrics
import JsonService.Proofs.Entries
import Mathlib.Data.Finmap

/-!
# Counters in a hash table

`Counters` lists its names in ascending order and counts without a bound. Counters in memory are kept otherwise: in a
hash table, whose entries stand in no order, and in words of 64 bits. Only a snapshot puts them in order.

**Results.**
* `snapshot`: what a snapshot lists does not depend on the order in which the table is visited.
* `get?_after`, `lookup_after`: what counters and a table have after some names have been counted.
* `snapshot_after`: as long as the words have room, a snapshot is what `Counters` is after the same counts.
-/
namespace JsonService.Counters

/-! ## Counters after some counts -/

/-- The counters after some names have been counted in turn. -/
def after (c : Counters) (names : List String) : Counters := names.foldl (fun c name => c.increment name) c

theorem ascending_after {c : Counters} (h : Entries.Ascending c) (names : List String) :
    Entries.Ascending (c.after names) := by
  induction names generalizing c with
  | nil => exact h
  | cons name names ih => exact ih (h.insert _ _)

/-- A name has as many counts more as it was counted, and no other name is new. -/
theorem get?_after (c : Counters) (names : List String) (k : String) :
    Entries.get? k (c.after names) =
      if k ∈ names then some (c.get k + names.count k) else Entries.get? k c := by
  induction names generalizing c with
  | nil => rfl
  | cons name names ih =>
    show Entries.get? k ((c.increment name).after names) = _
    rw [ih, get_increment, increment, Entries.get?_insert]
    by_cases same : k = name
    · subst same
      by_cases more : k ∈ names
      · simp only [more, if_true, List.mem_cons, true_or, List.count_cons_self]
        congr 1
        omega
      · simp [more, List.count_eq_zero_of_not_mem more]
    · simp [same, Ne.symm same]

theorem get_after (c : Counters) (names : List String) (k : String) :
    (c.after names).get k = c.get k + names.count k := by
  rw [get, get?_after]
  split
  · rfl
  · rw [List.count_eq_zero_of_not_mem ‹_›]
    rfl

/-! ## Words in a hash table -/

/-- A hash table of counters. -/
abbrev Table := Finmap fun _ : String => UInt64

namespace Table

/-- The entries of a table in the order in which they are visited. -/
abbrev Visit := List (Sigma fun _ : String => UInt64)

def Visit.entries (visit : Visit) : Entries UInt64 := visit.map fun e => (e.1, e.2)

theorem Visit.get?_entries (visit : Visit) (k : String) : Entries.get? k visit.entries = visit.dlookup k := by
  induction visit with
  | nil => rfl
  | cons e rest ih =>
    obtain ⟨name, word⟩ := e
    show (if name = k then some word else Entries.get? k (Visit.entries rest)) = _
    by_cases same : name = k
    · subst same
      rw [if_pos rfl, List.dlookup_cons_eq]
    · rw [if_neg same, List.dlookup_cons_ne _ _ (Ne.symm same), ih]

/-- Visited in any order, the entries of a table are put in order with the words that they have. -/
theorem Visit.get?_gather {visit : Visit} (distinct : visit.NodupKeys) (k : String) :
    Entries.get? k (Entries.gather visit.entries) = visit.dlookup k := by
  have backwards : visit.entries.reverse = Visit.entries visit.reverse := (List.map_reverse).symm
  rw [Entries.get?_gather, backwards, Visit.get?_entries]
  exact (List.perm_dlookup k distinct (List.reverse_perm visit).symm).symm

theorem Visit.gather_perm {visit visit' : Visit} (distinct : visit.NodupKeys) (perm : visit.Perm visit') :
    Entries.gather visit.entries = Entries.gather visit'.entries := by
  refine (Entries.ascending_gather _).ext (Entries.ascending_gather _) fun k => ?_
  rw [Visit.get?_gather distinct, Visit.get?_gather ((List.perm_nodupKeys perm).mp distinct)]
  exact List.perm_dlookup k distinct perm

def get (t : Table) (name : String) : UInt64 := (t.lookup name).getD 0

def increment (t : Table) (name : String) : Table := t.insert name (get t name + 1)

/-- The counters with their names ascending. The entries may be visited in any order. -/
def snapshot (t : Table) : Entries UInt64 :=
  t.liftOn (fun visit => Entries.gather (Visit.entries visit.entries))
    fun visit _ perm => Visit.gather_perm visit.nodupKeys perm

theorem ascending_snapshot (t : Table) : (snapshot t).Ascending := by
  induction t using Finmap.induction_on with
  | H visit => exact Entries.ascending_gather _

theorem get?_snapshot (t : Table) (k : String) : Entries.get? k (snapshot t) = t.lookup k := by
  induction t using Finmap.induction_on with
  | H visit => exact Visit.get?_gather visit.nodupKeys k

theorem lookup_increment (t : Table) (name k : String) :
    (increment t name).lookup k = if k = name then some (get t name + 1) else t.lookup k := by
  by_cases same : k = name
  · subst same
    rw [if_pos rfl, increment, Finmap.lookup_insert]
  · rw [if_neg same, increment, Finmap.lookup_insert_of_ne _ same]

def after (t : Table) (names : List String) : Table := names.foldl increment t

theorem after_concat (t : Table) (names : List String) (name : String) :
    after t (names ++ [name]) = increment (after t names) name := List.foldl_concat ..

theorem lookup_after (names : List String) (k : String) :
    (after ∅ names).lookup k = if k ∈ names then some (UInt64.ofNat (names.count k)) else none := by
  induction names using List.reverseRecOn with
  | nil => rfl
  | append_singleton names name ih =>
    rw [after_concat, lookup_increment]
    by_cases same : k = name
    · subst same
      have counted : get (after ∅ names) k = UInt64.ofNat (names.count k) := by
        rw [get, ih]
        split
        · rfl
        · rw [List.count_eq_zero_of_not_mem ‹_›]
          rfl
      simp [counted, UInt64.ofNat_add]
    · simp [same, ih, List.count_append, Ne.symm same]

/-- The value of a name is the number of its counts, if a word has room for it. -/
theorem get_after {names : List String} {k : String} (room : names.count k < 2 ^ 64) :
    (get (after ∅ names) k).toNat = names.count k := by
  rw [get, lookup_after]
  split
  · exact UInt64.toNat_ofNat_of_lt' room
  · rw [List.count_eq_zero_of_not_mem ‹_›]
    rfl

theorem mem_snapshot_after {names : List String} {k : String} (room : names.count k < 2 ^ 64) (word : UInt64) :
    (k, word) ∈ snapshot (after ∅ names) ↔ k ∈ names ∧ word.toNat = names.count k := by
  rw [(ascending_snapshot _).mem_iff, get?_snapshot, lookup_after]
  split
  · next counted =>
    rw [Option.some_inj, ← UInt64.toNat_inj, UInt64.toNat_ofNat_of_lt' room]
    simp [counted, eq_comm]
  · next uncounted => simp [uncounted]

/-- A snapshot is what the counters are that have no bound, as long as the words have room. -/
theorem snapshot_after {names : List String} (room : ∀ k, names.count k < 2 ^ 64) :
    (snapshot (after ∅ names)).map (fun e => (e.1, e.2.toNat)) = Counters.after [] names := by
  refine ((ascending_snapshot _).map _).ext (ascending_after .nil names) fun k => ?_
  rw [Entries.get?_map, get?_snapshot, lookup_after, get?_after]
  split
  · rw [Option.map_some, UInt64.toNat_ofNat_of_lt' (room k)]
    simp [Counters.get, Entries.get?]
  · rfl

end Table

end JsonService.Counters
