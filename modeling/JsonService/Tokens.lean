/-!
# Cancellation tokens

A token is made by itself or as the child of another one. Whoever cancels a token cancels with it every token that
hangs on it, its children and theirs, and no other token. A child of a cancelled token is cancelled from the start, and
a cancelled token stays so. Models `CancellationToken` of `tokio_util`.
-/
namespace JsonService

structure Token where
  /-- The tokens that it hangs on, by number: the one it is a child of, the one that is a child of, and so on. -/
  above : List Nat := []
  cancelled : Bool := false
  deriving DecidableEq, Repr

/-- Tokens, numbered in the order in which they are made. -/
structure Tokens where
  made : List Token := []
  /-- A token hangs only on older ones. -/
  older : ∀ (t : Nat) (token : Token), made[t]? = some token → ∀ a ∈ token.above, a < t := by simp

namespace Tokens

def empty : Tokens where
  made := []
  older := by simp

def count (ts : Tokens) : Nat := ts.made.length

/-- The tokens that a token hangs on. -/
def above (ts : Tokens) (t : Nat) : List Nat := (ts.made[t]?).elim [] (·.above)

def isCancelled (ts : Tokens) (t : Nat) : Bool := (ts.made[t]?).elim false (·.cancelled)

theorem above_lt (ts : Tokens) {t a : Nat} (h : a ∈ ts.above t) : a < t := by
  cases ht : ts.made[t]? with
  | none => simp [above, ht] at h
  | some token => exact ts.older t token ht a (by simpa [above, ht] using h)

def push (ts : Tokens) (token : Token) (h : ∀ a ∈ token.above, a < ts.count) : Tokens where
  made := ts.made ++ [token]
  older := by
    intro t u hu a ha
    rcases Nat.lt_or_ge t ts.made.length with ht | ht
    · rw [List.getElem?_append_left ht] at hu
      exact ts.older t u hu a ha
    · rw [List.getElem?_append_right ht, List.getElem?_singleton] at hu
      split at hu
      · cases hu
        exact Nat.lt_of_lt_of_le (h a ha) ht
      · cases hu

/-- A token by itself, whose number is the number of tokens so far. -/
def create (ts : Tokens) : Tokens := ts.push {} (by simp)

/-- A child of a token; by itself, if there is no such token. -/
def child (ts : Tokens) (t : Nat) : Tokens :=
  if h : t < ts.count then
    ts.push { above := t :: ts.above t, cancelled := ts.isCancelled t } (by
      intro a ha
      rcases List.mem_cons.mp ha with rfl | ha
      · exact h
      · exact Nat.lt_trans (ts.above_lt ha) h)
  else ts.create

/-- Cancels a token and all that hang on it. -/
def cancel (ts : Tokens) (t : Nat) : Tokens where
  made := ts.made.mapIdx fun u token =>
    if u = t ∨ t ∈ token.above then { token with cancelled := true } else token
  older := by
    intro u token hu a ha
    simp only [List.getElem?_mapIdx, Option.map_eq_some_iff] at hu
    obtain ⟨old, hold, rfl⟩ := hu
    refine ts.older u old hold a ?_
    split at ha <;> exact ha

end Tokens

end JsonService
