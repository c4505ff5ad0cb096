import JsonService.Handler

/-!
# Health checks

Handlers for probes: whether the process lives, and whether it can serve.
-/
namespace JsonService.Health

/-- The body of an answer to a probe. -/
def status (s : String) : Json := .object [("status", .text s)]

/-- The process lives. Models `liveness`. -/
def liveness : Handler σ := fun _ _ => respond (.ok (status "ok")) .ok

/-- A service that depends on nothing is ready. Models `readiness`. -/
def readiness : Handler σ := fun _ _ => respond (.ok (status "ok")) .ok

/-- A service that is ready if a check passes. Why it does not is logged and never sent. Models
`readiness_with`. -/
def readinessWith (check : Task σ (Except String Unit)) : Handler σ := fun ctx _ => do
  match ← check with
  | .ok () => respond (.ok (status "ok")) .ok
  | .error reason =>
    Task.log .warn "readiness check failed" [ctx.traceField, ("error", .words reason)]
    respond (.ok (status "not ready")) .unavailable

end JsonService.Health
