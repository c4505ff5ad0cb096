/-!
# Shutdown channel

The one signal that stops the process on its way from whoever asks for it to the server. The channel has a
latch, which the first call to signal closes, a queue with room for one signal, any number of senders, and
a receiver. Signalling takes two atomic steps, `swap` and `trySend`.
-/
namespace JsonService

/-- Why the process stops. Models `Signal`. -/
inductive Signal where
  /-- The user interrupts it. -/
  | interrupt
  /-- It is told to end, or it cannot go on. -/
  | terminate
  deriving DecidableEq, Repr

def Signal.name : Signal → String
  | .interrupt => "Interrupt"
  | .terminate => "Terminate"

/-- A shutdown channel. Senders are numbered; one that is gone keeps its number. Models `channel`.
-/
structure Channel where
  fired : Bool := false
  queued : Option Signal := none
  senders : List Bool := [true]
  receiving : Bool := true
  deriving DecidableEq, Repr

namespace Channel

/-- What a receiver sees that waits. -/
inductive Received where
  | signal (s : Signal)
  /-- No sender is left and nothing is queued. -/
  | closed
  | pending
  deriving DecidableEq, Repr

/-- Closes the latch and says whether it was closed already. -/
def swap (c : Channel) : Bool × Channel := (c.fired, { c with fired := true })

/-- Queues a signal if the receiver lives and the queue has room. -/
def trySend (c : Channel) (s : Signal) : Bool × Channel :=
  if c.receiving ∧ c.queued.isNone then (true, { c with queued := some s }) else (false, c)

/-- Sends a signal unless one was sent before; true only for the call that delivers one. Models
`ShutdownSender::signal`. -/
def signal (c : Channel) (s : Signal) : Bool × Channel :=
  let (was, c) := c.swap
  if was then (false, c) else c.trySend s

/-- Whether anyone has signalled. Models `ShutdownSender::is_signalled`. -/
def isSignalled (c : Channel) : Bool := c.fired

/-- Takes the queued signal, if there is one. Models `ShutdownReceiver::try_recv`. -/
def tryReceive (c : Channel) : Option Signal × Channel := (c.queued, { c with queued := none })

/-- What a receiver sees that waits now; a signal is taken. Models `ShutdownReceiver::recv`. -/
def receive (c : Channel) : Received × Channel :=
  match c.queued with
  | some s => (.signal s, { c with queued := none })
  | none => (if c.senders.any id then .pending else .closed, c)

/-- Whether a sender exists. -/
def hasSender (c : Channel) (n : Nat) : Bool := c.senders.getD n false

/-- Adds a sender and gives its number. -/
def clone (c : Channel) : Nat × Channel := (c.senders.length, { c with senders := c.senders ++ [true] })

def dropSender (c : Channel) (n : Nat) : Channel := { c with senders := c.senders.set n false }

def dropReceiver (c : Channel) : Channel := { c with receiving := false, queued := none }

end Channel

end JsonService
