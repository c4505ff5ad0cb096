import JsonService.Log.Event
import JsonService.Setup
import JsonService.Shutdown

/-!
# Servers

The life of a server to which nobody connects: it listens at an address until the operating system or a
sender of its channel tells it to stop.
-/
namespace JsonService

/-- A server, from its start to its stop. Models `Server`. -/
structure Server where
  /-- A signal of the operating system that the server has not seen yet. -/
  raised : Option Signal := none
  channel : Channel := {}
  /-- Why the server is over. -/
  ended : Option (Except SetupFailure Signal) := none
  log : List Log.Event := []

namespace Server

def event (message : String) (fields : Log.Fields := []) : Log.Event :=
  { level := .info, target := "taproom::server", message, fields }

def listening (address : String) : Server where
  log := [event "taproom listening" [("addr", .words address)]]

/-- A server that does not get its address. -/
def refused (reason : SetupFailure) : Server where
  channel := ({} : Channel).dropReceiver
  ended := some (.error reason)

/-- The server stops: it has no connections to wait for. -/
def stop (reason : Signal) (s : Server) : Server where
  ended := some (.ok reason)
  channel := s.channel.dropReceiver
  log := s.log ++
    [event "shutdown started, draining connections" [("signal", .words reason.name), ("in_flight", .number 0)],
     event "taproom stopped"]

/-- The server reacts to what it has been told since it last did, first to the operating system. -/
def react (s : Server) : Server :=
  if s.ended.isSome then s
  else match s.raised, s.channel.receive with
    | some reason, _ => s.stop reason
    | none, (.signal reason, channel) => { s with channel }.stop reason
    | none, _ => s

/-- The operating system tells the server to stop. -/
def raise (reason : Signal) (s : Server) : Server := { s with raised := s.raised <|> some reason }

/-- A sender tells the server to stop; true if it is the first one and the server still listens to it. -/
def signal (reason : Signal) (s : Server) : Bool × Server :=
  let (sent, channel) := s.channel.signal reason
  (sent, { s with channel })

end Server

end JsonService
