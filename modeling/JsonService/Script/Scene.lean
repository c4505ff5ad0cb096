import JsonService.Health
import JsonService.Json.Reader
import JsonService.Layers
import JsonService.Page
import JsonService.Script.Inspection
import JsonService.Script.Payload

/-!
# Scripted services

Handlers and layers that are described by data, for applications whose behaviour is to be watched. Their
service notes what they do, and counts the calls of each route.
-/
namespace JsonService.Script

/-- What a scripted handler or layer notes. -/
inductive Note where
  | handler
  /-- A layer is entered; a status may have been recorded before. -/
  | entered (tag : String) (recorded : Option Status)
  /-- A layer hands on a response. -/
  | left (tag : String) (recorded : Option Status) (status : Status)
  /-- A layer hands on a failure. -/
  | failed (tag : String) (recorded : Option Status) (e : Failure)

structure Scene where
  notes : List Note := []
  /-- How often each route was called. -/
  calls : List Nat := []

namespace Scene

def note (n : Note) (s : Scene) : Scene := { s with notes := s.notes ++ [n] }

/-- Notes a call of a route and gives the number of its calls before. -/
def enter (route : Nat) (s : Scene) : Nat × Scene :=
  let calls := s.calls ++ List.replicate (route + 1 - s.calls.length) 0
  (calls.getD route 0, { notes := s.notes ++ [.handler], calls := calls.modify route (· + 1) })

end Scene

/-- What a scripted handler does. -/
inductive Action where
  | respond (value : Except String Json) (status : Status)
  | answer (res : Response)
  | fail (e : Failure)
  | panic (p : Panic)
  | echo (inspection : Inspection) (status : Status)
  /-- Tells the trace of the request. -/
  | trace
  | page
  | decode (sample : Sample)
  | liveness
  | readiness
  /-- A check that pauses once and fails with a reason, if there is one. -/
  | readyWith (down : Option String)
  /-- Tells the counters, if they are the ones that are watched. -/
  | metrics (watched : Bool)
  | count (name : String) (next : Action)
  /-- Responds with a status and drops the response. -/
  | record (value : Json) (status : Status) (next : Action)
  | pause (times : Nat) (next : Action)
  | cancel (next : Action)
  | untilCancelled (next : Action)
  /-- Each call does the next of these; the last one repeats. -/
  | nth (actions : List Action)
  | hang

/-- Some pauses, then more work. -/
def pauses (next : Task σ α) : Nat → Task σ α
  | 0 => next
  | n + 1 => .pause (pauses next n)

mutual

/-- Takes an action, on the `call`-th call of its route. -/
def Action.run (call : Nat) (ctx : Context) (req : Request) : Action → Task Scene Result
  | .respond value status => JsonService.respond value status
  | .answer res => return .ok res
  | .fail e => return .error e
  | .panic p => .panicked p
  | .echo inspection status => do
    let view ← Task.look
    JsonService.respond (.ok (inspection.report req view)) status
  | .trace => JsonService.respond (.ok (.object [("trace_id", .text ctx.trace.render)])) .ok
  | .page =>
    match Page.ofRequest req with
    | .ok p => JsonService.respond (.ok (.object [("number", .nat p.number), ("size", .nat p.size)])) .ok
    | .error e => return .error e
  | .decode sample =>
    match sample.decode req.body with
    | .ok v => JsonService.respond (Json.parse (Text.Utf8.bytes v.render)) .created
    | .error e => return .error e
  | .liveness => Health.liveness ctx req
  | .readiness => Health.readiness ctx req
  | .readyWith down =>
    Health.readinessWith (.pause (.done (match down with
      | some reason => .error reason
      | none => .ok ()))) ctx req
  | .metrics watched => do
    let view ← Task.look
    JsonService.respond (.ok (if watched then view.counters.toJson else .object [])) .ok
  | .count name next => do
    Task.count name
    next.run call ctx req
  | .record value status next => do
    let _ ← JsonService.respond (.ok value) status
    next.run call ctx req
  | .pause times next => pauses (next.run call ctx req) times
  | .cancel next => do
    Task.perform .cancel
    next.run call ctx req
  | .untilCancelled next => .await (·.cancelled) (next.run call ctx req)
  | .nth actions => runNth call ctx req call actions
  | .hang => .await (fun _ => false) (return .ok (.text "ok"))

/-- Takes the `n`-th of some actions, or the last one. -/
def runNth (call : Nat) (ctx : Context) (req : Request) (n : Nat) : List Action → Task Scene Result
  | [] => return .ok (.text "ok")
  | [a] => a.run call ctx req
  | a :: b :: rest => match n with
    | 0 => a.run call ctx req
    | n + 1 => runNth call ctx req n (b :: rest)

end

/-- The handler that takes an action, for the `route`-th route. -/
def Action.handler (route : Nat) (a : Action) : Handler Scene := fun ctx req => do
  let call ← Task.update (Scene.enter route)
  a.run call ctx req

def plainHandler (res : Response) : Handler σ := fun _ _ => return .ok res

/-- What a scripted layer does. -/
inductive Wrapper where
  | builtin (b : Builtin)
  /-- Notes what goes in and what comes out. -/
  | tag (name : String)
  | deny (e : Failure)
  | short (res : Response)
  | panicBefore (s : String)
  | panicAfter (s : String)
  /-- Replaces any failure. -/
  | mapError (e : Failure)
  | recover (res : Response)
  /-- Turns any response into a failure. -/
  | failAfter (e : Failure)

def Wrapper.layer : Wrapper → Layer Scene
  | .builtin b => b.layer
  | .tag name => fun next ctx req => do
    let view ← Task.look
    Task.update fun s => ((), s.note (.entered name view.status))
    let result ← next ctx req
    let view ← Task.look
    Task.update fun s => ((), s.note (match result with
      | .ok res => .left name view.status res.status
      | .error e => .failed name view.status e))
    return result
  | .deny e => fun _ _ _ => return .error e
  | .short res => fun _ _ _ => return .ok res
  | .panicBefore s => fun _ _ _ => .panicked (.text s)
  | .panicAfter s => fun next ctx req => do
    let _ ← next ctx req
    .panicked (.text s)
  | .mapError e => fun next ctx req => do
    match ← next ctx req with
    | .ok res => return .ok res
    | .error _ => return .error e
  | .recover res => fun next ctx req => do
    match ← next ctx req with
    | .ok res => return .ok res
    | .error _ => return .ok res
  | .failAfter e => fun next ctx req => do
    match ← next ctx req with
    | .ok _ => return .error e
    | .error e => return .error e

end JsonService.Script
