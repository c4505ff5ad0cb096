import JsonService.Config
import JsonService.Log.Output
import JsonService.Server

/-!
# Runs of the beer service

The service as a process: it reads its configuration, opens its log and listens until a signal stops it.
-/
namespace JsonService.Beers

structure Run where
  output : Log.Output
  server : Server
  /-- What was logged before the server began to listen. -/
  opening : List Log.Event := []

namespace Run

/-- The variable whose filter takes the place of the configured one. -/
def filterVariable : String := "RUST_LOG"

def event (message : String) (fields : Log.Fields) : Log.Event :=
  { level := .info, target := "beers", message, fields }

/-- Starts a run; `bound` is the address at which the server comes to listen, if it is one of this
machine. Models `main`. -/
def start (env : Config.Environment) (bound : Config → String) : Except SetupFailure Run := do
  let config ← (Config.ofEnvironment env).mapError .config
  return {
    output := config.log.output (env.get? filterVariable)
    server := if config.address.host.isOwn then .listening (bound config) else .refused .addressElsewhere
    opening := [event "starting beers service" [("addr", .words config.address.render)]] }

def stop (reason : Signal) (r : Run) : Run := { r with server := (r.server.raise reason).react }

/-- What the service logs once its server is over. -/
def closing (r : Run) : List Log.Event :=
  match r.server.ended with
  | some (.ok reason) => [event "beers service stopped" [("signal", .words reason.name)]]
  | _ => []

/-- The lines that the run has written. -/
def lines (r : Run) : List Log.Line := r.output.lines (r.opening ++ r.server.log ++ r.closing)

end Run

end JsonService.Beers
