import JsonService.Proofs.App.Unreached
import JsonService.Proofs.Route.Filling
import Mathlib.Data.List.Nodup

/-!
# Path parameters lose nothing

A handler gets the parameters of its path by the names that its own route gives them. Whatever other routes there are,
the parameters filled into the pattern of the route are the path that was asked for, if no brace follows a parameter in
that pattern. Where one does, and stands for itself in another route, the two meet in a node whose text is told apart
too late, and a parameter may take the slash that ends its segment.

**Results.**
* `parameters_refill_path`: the parameters of a request refill its path (`Request.Refills`), by the names of the route
  that it has found, which was registered.
* `slash_in_parameter`: two routes and a path for which they do not.
-/
namespace JsonService

variable {σ α : Type}

namespace Request

/-- What a request answers for the name of a parameter, if no two have one name. -/
theorem param_eq_some {req : Request} (distinct : (req.params.map Prod.fst).Nodup) {name value : String}
    (mem : (name, value) ∈ req.params) : req.param name = some value := by
  rw [param]
  cases found : req.params.reverse.find? (·.1 = name) with
  | none => simpa using List.find?_eq_none.mp found (name, value) (List.mem_reverse.mpr mem)
  | some kv =>
    have same : kv.1 = name := by simpa using List.find?_some found
    have known : kv ∈ req.params := List.mem_reverse.mp (List.mem_of_find?_eq_some found)
    rw [List.inj_on_of_nodup_map distinct known mem same]
    rfl

theorem param_eq_none {req : Request} {name : String} (absent : name ∉ req.params.map Prod.fst) :
    req.param name = none := by
  rw [param, Option.map_eq_none_iff, List.find?_eq_none]
  intro kv hkv
  have other : kv.1 ≠ name := fun same => absent (same ▸ List.mem_map_of_mem (List.mem_reverse.mp hkv))
  simpa using other

/-- The parameters of a request refill its path: a pattern filled with them is the path, none of them is empty, one that
is no catch-all is within its segment, and there are no others. -/
structure Refills (req : Request) (ps : List Route.Piece) : Prop where
  path : Route.fill (fun name => ((req.param (String.ofList name)).getD "").toList) ps = req.path.toList
  given : ∀ name ∈ Route.pieceNames ps, ∃ value, req.param (String.ofList name) = some value ∧ value ≠ ""
  within : ∀ name, .parameter name ∈ ps → ∀ value, req.param (String.ofList name) = some value →
    Route.Slashless value.toList
  others : ∀ name : String, name.toList ∉ Route.pieceNames ps → req.param name = none

/-- A request refills its path if its parameters are the values that the pattern is filled with, and no two of them have
one name. -/
theorem refills_of_filled {req : Request} {ps : List Route.Piece} {filled : List (List Char × List Char)}
    (h : Route.Filled ps req.path.toList filled) (distinct : (Route.pieceNames ps).Nodup)
    (params : req.params = filled.map fun (name, value) => (String.ofList name, String.ofList value)) :
    req.Refills ps := by
  have names : req.params.map Prod.fst = (Route.pieceNames ps).map String.ofList := by
    rw [params, ← h.names, List.map_map, List.map_map]
    rfl
  have injective : Function.Injective String.ofList := fun a b same => by simpa using congrArg String.toList same
  have distinct' : (req.params.map Prod.fst).Nodup := names ▸ distinct.map injective
  have answer : ∀ v ∈ filled, req.param (String.ofList v.1) = some (String.ofList v.2) := by
    intro v hv
    refine param_eq_some distinct' ?_
    rw [params]
    exact List.mem_map.mpr ⟨v, hv, rfl⟩
  have known : ∀ name ∈ Route.pieceNames ps, ∃ v ∈ filled, v.1 = name := by
    intro name hname
    rw [← h.names] at hname
    exact List.mem_map.mp hname
  constructor
  · refine h.fill_eq fun v hv => ?_
    rw [answer v hv, Option.getD_some, String.toList_ofList]
  · intro name hname
    obtain ⟨v, hv, rfl⟩ := known name hname
    refine ⟨_, answer v hv, fun empty => h.values_ne_nil v hv ?_⟩
    simpa using congrArg String.toList empty
  · intro name mem value hvalue
    obtain ⟨v, hv, rfl⟩ := known name (List.mem_filterMap.mpr ⟨_, mem, rfl⟩)
    rw [answer v hv, Option.some.injEq] at hvalue
    rw [← hvalue, String.toList_ofList]
    exact h.slashless distinct v hv mem
  · intro name absent
    refine param_eq_none fun mem => absent ?_
    rw [names] at mem
    obtain ⟨cs, hcs, rfl⟩ := List.mem_map.mp mem
    rwa [String.toList_ofList]

end Request

namespace App

/-! ## Registrations -/

/-- The attempt to put a registration into the table of routes. -/
def registration (r : Endpoint σ × List (Layer σ)) : Route.Attempt (Endpoint σ × List (Layer σ)) where
  method := r.1.method
  version := r.1.version
  path := r.1.path
  value := r

theorem endpointTable_eq (routes : List (Endpoint σ × List (Layer σ))) :
    endpointTable Prod.fst {} routes = Route.Table.after {} (routes.map registration) := by
  rw [endpointTable, Route.Table.after, List.foldl_map]
  rfl

/-- The handler of a registration, within all the layers around it. -/
def chainOf (wrap : List (Layer σ)) (r : Endpoint σ × List (Layer σ)) : Handler σ := r.1.handler.within (wrap ++ r.2)

theorem registerAll_table (wrap : List (Layer σ)) (routes : List (Endpoint σ × List (Layer σ))) :
    registerAll { layers := wrap } routes =
      { layers := wrap, routes := (Route.Table.after {} (routes.map registration)).map (chainOf wrap) } := by
  have h := registerAll_eq wrap Prod.fst Prod.snd {} routes
  rw [Route.Table.map_empty, List.map_id'] at h
  rw [h, endpointTable_eq]
  rfl

theorem handle_registration (wrap : List (Layer σ)) (before : List (Endpoint σ × List (Layer σ)))
    (r : Endpoint σ × List (Layer σ)) :
    (registerAll { layers := wrap } before).handle r.1.method r.1.version r.1.path r.1.handler r.2 =
      (((Route.Table.after {} (before.map registration)).attempt (registration r)).1.mapError
        (SetupFailure.route r.1.method (Route.versioned r.1.version r.1.path)),
        registerAll { layers := wrap } (before ++ [r])) := by
  have inserted := Route.Table.insert_map (chainOf wrap) (Route.Table.after {} (before.map registration)) r.1.method
    (Route.versioned r.1.version r.1.path) r
  have last : Route.Table.after {} ((before ++ [r]).map registration) =
      ((Route.Table.after {} (before.map registration)).attempt (registration r)).2 := by
    rw [List.map_append, Route.Table.after, List.foldl_append]
    rfl
  rw [registerAll_table, registerAll_table, last, handle_eq, chain_eq_within]
  simp only [chainOf] at inserted
  simp only [inserted]
  rfl

/-! ## Plain routes -/

/-- A registration for `GET`, without a version, of a handler that does nothing. -/
def plainRoute (path : String) : Endpoint Unit × List (Layer Unit) :=
  (⟨.get, "", path, fun _ _ => .done (.ok {})⟩, [])

def pathRequest (path : String) : Incoming := { target := { origin := "", path, query := none } }

def pathReached (path : String) (params : List (String × String)) : Request where
  method := .get
  target := (pathRequest path).target
  params

/-- What some routes without a version make of a path can be computed from the routes alone. -/
theorem accepted_plainRoute {paths : List String} {path found : String} {params : List (String × String)}
    (looked : (match (Route.Table.after {} (paths.map fun p => (⟨.get, "", p, p⟩ : Route.Attempt String))).lookup .get
      path with
      | .found p ps => decide (p = found ∧ ps = params)
      | _ => false) = true) :
    Accepted (endpointTable Prod.fst {} (paths.map plainRoute)) (pathRequest path) (plainRoute found)
      (pathReached path params) := by
  have table : endpointTable Prod.fst {} (paths.map plainRoute) =
      (Route.Table.after {} (paths.map fun p => (⟨.get, "", p, p⟩ : Route.Attempt String))).map plainRoute := by
    have mapped := endpointTable_map Prod.fst plainRoute {} paths
    rw [Route.Table.map_empty] at mapped
    rw [mapped, endpointTable, Route.Table.after, List.foldl_map]
    rfl
  rw [table]
  refine .mk (m := .get) rfl ?_ rfl
  rw [Route.Table.lookup_map]
  split at looked
  · next eq =>
    obtain ⟨rfl, rfl⟩ := of_decide_eq_true looked
    exact congrArg (Route.Lookup.map plainRoute) eq
  · cases looked

theorem accepted_plainApp {paths : List String} {route : Endpoint Unit × List (Layer Unit)} {r : Incoming}
    {req : Request} (accepted : Accepted (endpointTable Prod.fst {} (paths.map plainRoute)) r route req) :
    Accepted (registerAll { layers := [] } (paths.map plainRoute)).routes r (chainOf [] route) req := by
  rw [registerAll_table, ← endpointTable_eq]
  exact accepted.map (chainOf [])

/-! ## Parameters -/

/-- **Path parameters lose nothing.** Whatever else was registered, a request that gets to a handler has found a route
that was registered with success, of which the handler is the one; and if no brace follows a parameter in the pattern of
that route and its names are distinct, the parameters of the request refill its path. -/
theorem parameters_refill_path (wrap : List (Layer σ)) (routes : List (Endpoint σ × List (Layer σ))) (r : Incoming)
    (h : Handler σ) (req : Request) (accepted : Accepted (registerAll { layers := wrap } routes).routes r h req) :
    ∃ before route more, routes = before ++ route :: more ∧
      Accepted (endpointTable Prod.fst {} routes) r route req ∧ h = chainOf wrap route ∧
      ((registerAll { layers := wrap } before).handle route.1.method route.1.version route.1.path route.1.handler
        route.2).1 = .ok () ∧ route.1.method = req.method ∧
      (Route.Spaced (Route.marked (registration route).pattern) →
        ∃ ps, Route.pieces none (Route.marked (registration route).pattern) = some ps ∧
          ((Route.pieceNames ps).Nodup → req.Refills ps)) := by
  rw [registerAll_table] at accepted
  obtain ⟨known, found, whole⟩ := accepted
  rw [Route.Table.lookup_map] at found
  cases looked : (Route.Table.after {} (routes.map registration)).lookup _ r.target.path with
  | methodNotAllowed | notFound => rw [looked] at found; cases found
  | found route params =>
    rw [looked] at found
    cases found
    obtain ⟨before', a, ⟨⟨more', split⟩, ok⟩, method, value, filled⟩ := Route.lookup_filled looked
    obtain ⟨before, rest, rfl, rfl, hrest⟩ := List.map_eq_append_iff.mp split
    obtain ⟨route', more, rfl, rfl, rfl⟩ := List.map_eq_cons_iff.mp hrest
    obtain rfl : route' = route := value
    refine ⟨before, route', more, rfl, ?_, rfl, ?_, method, fun spaced => ?_⟩
    · rw [endpointTable_eq]
      exact .mk known looked whole
    · rw [handle_registration, ok]
      rfl
    · obtain ⟨ps, values, read, filled, named⟩ := filled spaced
      exact ⟨ps, read, fun distinct => Request.refills_of_filled filled distinct named⟩

/-- Two routes that share a parameter under different names, of which the one leads nowhere. -/
def sharedPaths : List String := ["/beers/:id/x", "/beers/\x7bname\x7d/y/*rest"]

def sharedRoute : Endpoint Unit × List (Layer Unit) := plainRoute "/beers/\x7bname\x7d/y/*rest"

private theorem shared_before {before more : List (Endpoint Unit × List (Layer Unit))}
    (split : sharedPaths.map plainRoute = before ++ sharedRoute :: more) : before = [plainRoute "/beers/:id/x"] := by
  have two : sharedPaths.map plainRoute = [plainRoute "/beers/:id/x", sharedRoute] := rfl
  have other : (plainRoute "/beers/:id/x").1.path ≠ sharedRoute.1.path := by decide
  rw [two] at split
  cases before with
  | nil => exact absurd (congrArg (fun r => r.1.path) (List.cons.inj split).1) other
  | cons b before =>
    obtain ⟨rfl, rest⟩ := List.cons.inj split
    cases before with
    | nil => rfl
    | cons b before => simp at rest

theorem parameters_refill_path_shared : ∃ req ps,
    Accepted (registerAll { layers := [] } (sharedPaths.map plainRoute)).routes (pathRequest "/beers/ale/y/a/b")
      (chainOf [] sharedRoute) req ∧
    req.params = [("name", "ale"), ("rest", "a/b")] ∧
    ((registerAll { layers := [] } [plainRoute "/beers/:id/x"]).handle .get "" "/beers/\x7bname\x7d/y/*rest"
      sharedRoute.1.handler []).1 = .ok () ∧
    Route.Spaced (Route.marked (registration sharedRoute).pattern) ∧
    Route.pieces none (Route.marked (registration sharedRoute).pattern) = some ps ∧ (Route.pieceNames ps).Nodup ∧
    req.Refills ps := by
  have accepted : Accepted (endpointTable Prod.fst {} (sharedPaths.map plainRoute)) (pathRequest "/beers/ale/y/a/b")
      sharedRoute (pathReached "/beers/ale/y/a/b" [("name", "ale"), ("rest", "a/b")]) :=
    accepted_plainRoute (by decide +kernel)
  have spaced : Route.Spaced (Route.marked (registration sharedRoute).pattern) := by decide +kernel
  have distinct : (Route.pieces none (Route.marked (registration sharedRoute).pattern)).all fun ps =>
      decide (Route.pieceNames ps).Nodup := by decide +kernel
  obtain ⟨before, route, more, split, found, -, registered, -, refills⟩ := parameters_refill_path [] _ _ _ _
    (accepted_plainApp accepted)
  -- what the path finds is the second route, so it is the first that was there before
  obtain rfl := (found.unique accepted).1
  obtain rfl := shared_before split
  obtain ⟨ps, read, refills⟩ := refills spaced
  rw [read] at distinct
  have distinct : (Route.pieceNames ps).Nodup := of_decide_eq_true distinct
  exact ⟨_, ps, accepted_plainApp accepted, rfl, registered, spaced, read, distinct, refills distinct⟩

/-- A route with braces that stand for themselves behind its parameter, and one with two parameters in a segment, which
is refused where there is no such other one. -/
def bracedPaths : List String := ["/\x7ba\x7d\x7b\x7bb\x7d\x7d", "/\x7bx\x7d\x7by\x7d"]

/-- The second route is registered behind the first, and its first parameter takes a slash. -/
theorem slash_in_parameter : ∃ ps req,
    ((registerAll { layers := [] } [plainRoute "/\x7ba\x7d\x7b\x7bb\x7d\x7d"]).handle .get "" "/\x7bx\x7d\x7by\x7d"
      (plainRoute "/\x7bx\x7d\x7by\x7d").1.handler []).1 = .ok () ∧
    Accepted (registerAll { layers := [] } (bracedPaths.map plainRoute)).routes (pathRequest "/foo/bar")
      (chainOf [] (plainRoute "/\x7bx\x7d\x7by\x7d")) req ∧
    Accepted (endpointTable Prod.fst {} (bracedPaths.map plainRoute)) (pathRequest "/foo/bar")
      (plainRoute "/\x7bx\x7d\x7by\x7d") req ∧
    Route.pieces none (Route.marked (registration (plainRoute "/\x7bx\x7d\x7by\x7d")).pattern) = some ps ∧
    (Route.pieceNames ps).Nodup ∧ req.param "x" = some "foo/" ∧ ¬req.Refills ps := by
  have accepted : Accepted (endpointTable Prod.fst {} (bracedPaths.map plainRoute)) (pathRequest "/foo/bar")
      (plainRoute "/\x7bx\x7d\x7by\x7d") (pathReached "/foo/bar" [("x", "foo/"), ("y", "bar")]) :=
    accepted_plainRoute (by decide +kernel)
  have registered := handle_registration [] [plainRoute "/\x7ba\x7d\x7b\x7bb\x7d\x7d"]
    (plainRoute "/\x7bx\x7d\x7by\x7d")
  have succeeds : ((Route.Table.after {} ([plainRoute "/\x7ba\x7d\x7b\x7bb\x7d\x7d"].map registration)).attempt
      (registration (plainRoute "/\x7bx\x7d\x7by\x7d"))).1 = .ok () := by decide +kernel
  have x : (pathReached "/foo/bar" [("x", "foo/"), ("y", "bar")]).param "x" = some "foo/" := by decide
  rw [succeeds] at registered
  refine ⟨[.text '/', .parameter ['x'], .parameter ['y']], _, congrArg Prod.fst registered, accepted_plainApp accepted,
    accepted, by decide +kernel, by decide, x, fun refills => ?_⟩
  exact refills.within ['x'] (by decide) "foo/" x '/' (by decide) rfl

end App

end JsonService
