import JsonService.Json.Value

/-!
# Metrics

Counters by name. A set of counters lists the names that were counted at least once, in ascending order.
A recorder passes every count on under a longer name.
-/
namespace JsonService

abbrev Counters := Entries Nat

namespace Counters

/-- The value of a counter: zero if it was never counted. Models `InMemoryMetrics::get`. -/
def get (name : String) (c : Counters) : Nat := (Entries.get? name c).getD 0

/-- Models `InMemoryMetrics::increment`. -/
def increment (name : String) (c : Counters) : Counters := Entries.insert name (c.get name + 1) c

/-- A count adds one to its own counter and leaves the others alone. -/
theorem get_increment (name k : String) (c : Counters) :
    (c.increment name).get k = c.get k + if k = name then 1 else 0 := by
  by_cases h : k = name <;> simp [increment, get, Entries.get?_insert, h]

def toJson (c : Counters) : Json := .object (c.map fun (k, n) => (k, .nat n))

/-- Requests that reach a route. -/
def requests : String := "requests"

/-- Requests whose inner chain failed. -/
def errors : String := "errors"

/-- Panics that were caught. -/
def panics : String := "panics"

end Counters

/-- Passes counts on to the process-wide counters, each under its name with a label before it.
Models `RecorderMetrics`. -/
structure Recorder where
  label : String := "app_"

/-- Counts a name in the process-wide counters. Models `RecorderMetrics::increment`. -/
def Recorder.increment (r : Recorder) (name : String) (wide : Counters) : Counters :=
  wide.increment (r.label ++ name)

end JsonService
