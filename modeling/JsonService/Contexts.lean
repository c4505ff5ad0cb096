import JsonService.Handler
import JsonService.Tokens

/-!
# Contexts side by side

A context leads to what it shares: the values of its request, which are its trace and the status of the last response,
its cancellation token, and the counters. A context that is cloned from another leads to the same values and the same
token. All contexts lead to the same counters. Models `Context` and its clones.
-/
namespace JsonService

/-- What a context leads to, by number. -/
structure Contexts.Member where
  values : Nat
  token : Nat
  deriving DecidableEq, Repr

/-- Contexts by number, and what they share. In the beginning there is one. -/
structure Contexts where
  members : List Contexts.Member := [⟨0, 0⟩]
  /-- The status in each of the values. -/
  statuses : List (Option Status) := [none]
  tokens : Tokens := Tokens.empty.create
  counters : Counters := []

namespace Contexts

def index (cs : Contexts) (n : Nat) : Nat := min n (cs.members.length - 1)

def member (cs : Contexts) (n : Nat) : Member := cs.members.getD (cs.index n) ⟨0, 0⟩

def Member.state (cs : Contexts) (m : Member) : RequestState :=
  ⟨cs.statuses.getD m.values none, cs.tokens.isCancelled m.token⟩

def state (cs : Contexts) (n : Nat) : RequestState := (cs.member n).state cs

/-- What a context knows about its request. -/
def context (cs : Contexts) (n : Nat) : Context := ⟨Context.traceOf (cs.member n).values, .epoch⟩

/-- The first context with the same values. -/
def firstSharing (cs : Contexts) (n : Nat) : Nat :=
  cs.members.findIdx fun m => m.values = (cs.member n).values

/-- What a task with a context works on. -/
def world (cs : Contexts) (n : Nat) : World Unit :=
  { request := cs.state n, shared := { counters := cs.counters, service := () } }

/-- The contexts after a task with one of them has run. -/
def work (cs : Contexts) (n : Nat) (task : Context → Task Unit α) : Contexts :=
  let (_, w) := (task (cs.context n)).run (cs.world n)
  let m := cs.member n
  { cs with statuses := cs.statuses.set m.values w.request.status
            tokens := if w.request.cancelled then cs.tokens.cancel m.token else cs.tokens
            counters := w.shared.counters }

/-- What may be done with the contexts. -/
inductive Step where
  | clone (n : Nat)
  /-- A context of its own. -/
  | create
  /-- Responds with a value, which may fail to have a text. -/
  | answer (n : Nat) (value : Except String Json) (status : Status)
  /-- Runs a handler. -/
  | call (n : Nat) (handler : Handler Unit) (req : Request)
  | cancel (n : Nat)
  /-- Makes a child of the token of a context, and cancels the child. -/
  | cancelChild (n : Nat)
  | increment (name : String)
  | nothing

/-- Responds with a value that has a text. -/
def Step.respond (n : Nat) (value : Json) (status : Status) : Step := .answer n (.ok value) status

/-- A request without anything in it. -/
def blank : Request := { method := .get, target := .parse "/" }

/-- Runs a handler that answers with a status. -/
def Step.handle (n : Nat) (status : Status) : Step := .call n (fun _ _ => return .ok (.ofStatus status)) blank

def step (cs : Contexts) : Step → Contexts
  | .clone n => { cs with members := cs.members ++ [cs.member n] }
  | .create => { cs with members := cs.members ++ [⟨cs.statuses.length, cs.tokens.count⟩]
                         statuses := cs.statuses ++ [none]
                         tokens := cs.tokens.create }
  | .answer n value status => cs.work n fun _ => JsonService.respond value status
  | .call n handler req => cs.work n fun ctx => Handler.recorded handler ctx req
  | .cancel n => cs.work n fun _ => Task.perform .cancel
  | .cancelChild n => { cs with tokens := (cs.tokens.child (cs.member n).token).cancel cs.tokens.count }
  | .increment name => cs.work 0 fun _ => Task.count name
  | .nothing => cs

def run (cs : Contexts) (steps : List Step) : Contexts := steps.foldl step cs

end Contexts

end JsonService
