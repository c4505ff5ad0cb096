import JsonService.Handler

/-!
# Built-in layers

Four layers that every service may use, in any order and any number. The usual order is: log, render
errors, count, catch panics.
-/
namespace JsonService

namespace Layers

def requestFields (ctx : Context) (req : Request) : Log.Fields :=
  [ctx.traceField, ("method", .words req.method.name), ("path", .words req.path),
   ("remote_addr", .text (req.remote.getD "-"))]

/-- Logs when a request starts and when it is over, with the status recorded last. Models `Logger`.
-/
def logger : Layer σ := fun next ctx req => do
  Task.log .info "request started" (requestFields ctx req)
  let result ← next ctx req
  let view ← Task.look
  let status := (view.status.map (·.code)).getD 0
  Task.log .info "request completed" (requestFields ctx req ++ [("status", .number status)])
  return result

/-- Turns every failure but a shutdown into an error response. Models `Errors`. -/
def errors : Layer σ := fun next ctx req => do
  match ← next ctx req with
  | .ok res => return .ok res
  | .error e =>
    if e.isShutdown then
      Task.log .error "handler requested shutdown" [ctx.traceField, ("error", .words e.message)]
      Task.record .unavailable
      return .error e
    else
      let fields := [ctx.traceField, ("status", .number e.status.code), ("error", .words e.message)]
      if e.status.isServerError then Task.log .error "request failed" fields
      else Task.log .warn "request rejected" fields
      let res ← respondFailure e
      return .ok res

/-- Counts requests and failures. Models `Metrics`. -/
def metrics : Layer σ := fun next ctx req => do
  Task.count Counters.requests
  match ← next ctx req with
  | .ok res => return .ok res
  | .error e =>
    Task.count Counters.errors
    return .error e

/-- Turns a panic into a failure. Models `Panics`. -/
def panics : Layer σ := fun next ctx req => do
  match ← (next ctx req).catchPanic with
  | .ok result => return result
  | .error p =>
    Task.count Counters.panics
    Task.log .error "handler panicked" [ctx.traceField, ("panic", .words p.message)]
    return .error (.unexpected s!"PANIC [{p.message}]")

end Layers

/-- The built-in layers by name. -/
inductive Builtin where
  | logger | errors | metrics | panics
  deriving DecidableEq, Repr

def Builtin.layer : Builtin → Layer σ
  | .logger => Layers.logger
  | .errors => Layers.errors
  | .metrics => Layers.metrics
  | .panics => Layers.panics

end JsonService
