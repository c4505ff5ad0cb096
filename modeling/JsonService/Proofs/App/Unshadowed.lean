import JsonService.Proofs.App.PathParameters
import JsonService.Proofs.Route.Variants

/-!
# No route is shadowed

A route that is registered cannot be taken over. Whatever else an application has been given before and since, another
spelling of the route is refused, and nothing changes for any request: with more or fewer slashes around the version and
before the path, with parameters in braces or behind colons, and with other names for them. The handler of the route
goes on getting its parameters by the names that it gave them first.

**Results.**
* `no_route_shadowed`: this, and that a registration succeeds or fails on account of the earlier ones for its method
  alone.
* `usual_spelling_refused`: the same for the usual spellings by name, with colons, stars or braces and any slashes.
-/
namespace JsonService.App

variable {σ : Type}

def attempt (app : App σ) (r : Endpoint σ × List (Layer σ)) : Except SetupFailure Unit × App σ :=
  app.handle r.1.method r.1.version r.1.path r.1.handler r.2

/-- A registration that fails with the fault of its route, and leaves the work on every request as it was. -/
structure RefusedBy (app : App σ) (r : Endpoint σ × List (Layer σ)) : Prop where
  fails : ∃ fault, fault ≠ .tooMany ∧ (app.attempt r).1 =
    .error (.route r.1.method (Route.versioned r.1.version r.1.path) fault)
  lookup : ∀ m path, (app.attempt r).2.routes.lookup m path = app.routes.lookup m path
  dispatch : ∀ ctx incoming, (app.attempt r).2.dispatch ctx incoming = app.dispatch ctx incoming

/-- What a registration is for and how it is spelled. -/
def spelled (r : Endpoint σ × List (Layer σ)) : Method × String × String := (r.1.method, r.1.version, r.1.path)

/-- The names of the parameters that a registration gives. -/
def Names (r : Endpoint σ × List (Layer σ)) (names : List String) : Prop :=
  ∃ ps, Route.pieces none (Route.marked (registration r).pattern) = some ps ∧
    names = (Route.pieceNames ps).map String.ofList

theorem attempt_eq (wrap : List (Layer σ)) (before : List (Endpoint σ × List (Layer σ)))
    (r : Endpoint σ × List (Layer σ)) : (registerAll { layers := wrap } before).attempt r =
      (((Route.Table.after {} (before.map registration)).attempt (registration r)).1.mapError
        (SetupFailure.route r.1.method (Route.versioned r.1.version r.1.path)),
        registerAll { layers := wrap } (before ++ [r])) :=
  handle_registration wrap before r

/-- The work on a request depends on what its path finds. -/
theorem dispatch_of_lookup {app app' : App σ} (same : ∀ m path, app'.routes.lookup m path = app.routes.lookup m path)
    (ctx : Context) (incoming : Incoming) : app'.dispatch ctx incoming = app.dispatch ctx incoming := by
  simp only [dispatch, same]

theorem table_snoc (routes : List (Endpoint σ × List (Layer σ))) (r : Endpoint σ × List (Layer σ)) :
    Route.Table.after {} ((routes ++ [r]).map registration) =
      ((Route.Table.after {} (routes.map registration)).attempt (registration r)).2 := by
  rw [List.map_append, List.map_singleton, Route.after_snoc]

theorem refusedBy_of_refused (wrap : List (Layer σ)) {routes : List (Endpoint σ × List (Layer σ))}
    {r : Endpoint σ × List (Layer σ)} {fault : Route.Fault} (ne : fault ≠ .tooMany)
    (outcome : ((Route.Table.after {} (routes.map registration)).attempt (registration r)).1 = .error fault)
    (refused : (registration r).Refused (.error fault)) :
    (registerAll { layers := wrap } routes).RefusedBy r := by
  have lookup : ∀ m path, ((registerAll { layers := wrap } routes).attempt r).2.routes.lookup m path =
      (registerAll { layers := wrap } routes).routes.lookup m path := by
    intro m path
    rw [attempt_eq, registerAll_table, registerAll_table, table_snoc, Route.Table.lookup_map, Route.Table.lookup_map,
      Route.lookup_refused (outcome ▸ refused)]
  exact ⟨⟨fault, ne, by rw [attempt_eq, outcome]; rfl⟩, lookup, dispatch_of_lookup lookup⟩

/-- A request that is led to a registration has its parameters by the names that were registered. -/
theorem accepted_names {routes : List (Endpoint σ × List (Layer σ))} {route : Endpoint σ × List (Layer σ)}
    (whole : (registration route).WholeParameters) {r : Incoming} {req : Request}
    (accepted : Accepted (endpointTable Prod.fst {} routes) r route req) :
    Names route (req.params.map Prod.fst) := by
  rw [endpointTable_eq] at accepted
  obtain ⟨-, found, -⟩ := accepted
  obtain ⟨before, a, ⟨⟨more, split⟩, -⟩, -, value, filled⟩ := Route.lookup_filled found
  obtain ⟨-, rest, -, -, hrest⟩ := List.map_eq_append_iff.mp split
  obtain ⟨route', -, -, rfl, -⟩ := List.map_eq_cons_iff.mp hrest
  obtain rfl : route' = route := value
  obtain ⟨gs, hgs⟩ := whole.segments
  obtain ⟨ps, read, shape⟩ := Route.Attempt.pattern_read hgs
  obtain ⟨ps', values, read', filled, params⟩ := filled (Route.spaced_of_segmented read
    (Route.segmented_shape.mp (shape ▸ Route.segmented_tail gs)))
  refine ⟨ps', read', ?_⟩
  show (_ : List (String × String)).map Prod.fst = _
  rw [params, ← filled.names, List.map_map, List.map_map]
  rfl

theorem accepted_of_registered (wrap : List (Layer σ)) {routes : List (Endpoint σ × List (Layer σ))}
    {route : Endpoint σ × List (Layer σ)} {r : Incoming} {req : Request}
    (accepted : Accepted (endpointTable Prod.fst {} routes) r route req) :
    Accepted (registerAll { layers := wrap } routes).routes r (chainOf wrap route) req := by
  rw [registerAll_table, ← endpointTable_eq]
  exact accepted.map (chainOf wrap)

theorem RefusedBy.accepted {app : App σ} {variant : Endpoint σ × List (Layer σ)} (h : app.RefusedBy variant)
    {r : Incoming} {handler : Handler σ} {req : Request} (accepted : Accepted app.routes r handler req) :
    Accepted (app.attempt variant).2.routes r handler req := by
  obtain ⟨known, found, whole⟩ := accepted
  exact .mk known ((h.lookup _ _).trans found) whole

theorem refusedBy_of_variant (wrap : List (Layer σ)) {before : List (Endpoint σ × List (Layer σ))}
    {route : Endpoint σ × List (Layer σ)} (ok : ((registerAll { layers := wrap } before).attempt route).1 = .ok ())
    (whole : (registration route).WholeParameters) (more : List (Endpoint σ × List (Layer σ)))
    {variant : Endpoint σ × List (Layer σ)} (same : (registration variant).VariantOf (registration route)) :
    (registerAll { layers := wrap } (before ++ route :: more)).RefusedBy variant := by
  have succeeded : ((Route.Table.after {} (before.map registration)).attempt (registration route)).1 = .ok () := by
    rw [attempt_eq] at ok
    cases outcome : ((Route.Table.after {} (before.map registration)).attempt (registration route)).1 with
    | ok u => rfl
    | error fault =>
      rw [outcome] at ok
      cases ok
  obtain ⟨fault, outcome, ne, refused⟩ := Route.variant_refused succeeded whole (more.map registration) same
  rw [← List.map_cons, ← List.map_append] at outcome
  exact refusedBy_of_refused wrap ne outcome refused

theorem bare_registrations (routes : List (Endpoint σ × List (Layer σ))) (m : Method) :
    ((routes.map registration).filter (·.method = m)).map Route.Attempt.bare =
      ((routes.filter (·.1.method = m)).map spelled).map fun s => ⟨s.1, s.2.1, s.2.2, ()⟩ := by
  rw [List.filter_map, List.map_map, List.map_map]
  rfl

/-- What a registration comes to depends on those for its method. -/
theorem attempt_own_method (wrap wrap' : List (Layer σ)) {routes routes' : List (Endpoint σ × List (Layer σ))}
    {r r' : Endpoint σ × List (Layer σ)} (same : spelled r = spelled r')
    (own : (routes.filter (·.1.method = r.1.method)).map spelled =
      (routes'.filter (·.1.method = r.1.method)).map spelled) :
    ((registerAll { layers := wrap } routes).attempt r).1 =
      ((registerAll { layers := wrap' } routes').attempt r').1 := by
  have method : r'.1.method = r.1.method := congrArg Prod.fst same.symm
  have version : r'.1.version = r.1.version := congrArg (·.2.1) same.symm
  have path : r'.1.path = r.1.path := congrArg (·.2.2) same.symm
  have bare : (registration r).bare = (registration r').bare := by
    simp only [registration, Route.Attempt.bare, method, version, path]
  have alone : ((routes.map registration).filter (·.method = (registration r).method)).map Route.Attempt.bare =
      ((routes'.map registration).filter (·.method = (registration r').method)).map Route.Attempt.bare := by
    rw [bare_registrations, bare_registrations, registration, registration, method, own]
  have outcome := Route.outcome_own_method bare alone
  rw [attempt_eq, attempt_eq, method, version, path, outcome]

/-- **No route is shadowed.** Whatever was registered before and after a route of whole segments that was registered
with success, every variant of it is refused with the fault of its route, and the work on every request is what it was;
a request that is led to the route still reaches its handler, with parameters by the names that were registered. Whether
a registration succeeds, and with what fault it fails, depends on the earlier ones for its method alone. -/
theorem no_route_shadowed (wrap : List (Layer σ)) :
    (∀ (before : List (Endpoint σ × List (Layer σ))) (route : Endpoint σ × List (Layer σ)),
      ((registerAll { layers := wrap } before).attempt route).1 = .ok () → (registration route).WholeParameters →
      ∀ (more : List (Endpoint σ × List (Layer σ))) (variant : Endpoint σ × List (Layer σ)),
        (registration variant).VariantOf (registration route) →
          (registerAll { layers := wrap } (before ++ route :: more)).RefusedBy variant ∧
          ∀ r req, Accepted (endpointTable Prod.fst {} (before ++ route :: more)) r route req →
            Accepted ((registerAll { layers := wrap } (before ++ route :: more)).attempt variant).2.routes r
              (chainOf wrap route) req ∧ Names route (req.params.map Prod.fst)) ∧
    ∀ (wrap' : List (Layer σ)) (routes routes' : List (Endpoint σ × List (Layer σ)))
      (r r' : Endpoint σ × List (Layer σ)), spelled r = spelled r' →
      (routes.filter (·.1.method = r.1.method)).map spelled = (routes'.filter (·.1.method = r.1.method)).map spelled →
      ((registerAll { layers := wrap } routes).attempt r).1 =
        ((registerAll { layers := wrap' } routes').attempt r').1 := by
  refine ⟨fun before route ok whole more variant same => ?_, fun wrap' _ _ _ _ => attempt_own_method wrap wrap'⟩
  have refused := refusedBy_of_variant wrap ok whole more same
  refine ⟨refused, fun r req accepted => ?_⟩
  exact ⟨refused.accepted (accepted_of_registered wrap accepted), accepted_names whole accepted⟩

/-- **Usual spellings.** A route of literal segments, parameters and catch-alls that was registered with success is
refused in every other spelling, whatever was registered before and after it: with a mark before a name or with braces
around it, with other names, and with more slashes around the version and before the path. -/
theorem usual_spelling_refused (wrap : List (Layer σ)) {before : List (Endpoint σ × List (Layer σ))}
    {route : Endpoint σ × List (Layer σ)} (ok : ((registerAll { layers := wrap } before).attempt route).1 = .ok ())
    {version path : List Route.Segment} (own : (registration route).Spells version path)
    (more : List (Endpoint σ × List (Layer σ))) (e : Endpoint σ) (layers : List (Layer σ))
    (method : e.method = route.1.method) (same : (registration (e, layers)).Spells version path)
    {left right front : List Char} (hleft : ∀ c ∈ left, Route.isSlash c = true)
    (hright : ∀ c ∈ right, Route.isSlash c = true) (hfront : ∀ c ∈ front, Route.isSlash c = true) :
    (registerAll { layers := wrap } (before ++ route :: more)).RefusedBy
      ({ e with
          version := String.ofList (left ++ e.version.toList ++ right)
          path := String.ofList (front ++ e.path.toList) }, layers) := by
  have spelled : (registration (e, layers)).VariantOf (registration route) :=
    Route.variantOf_spelled method same own
  have slashes := (Route.variantOf_slashes (registration (e, layers)) hleft hright hfront).trans spelled
  exact refusedBy_of_variant wrap ok own.whole more ⟨slashes.method, slashes.version, slashes.path⟩

def beerPaths : List String := ["/beers/new", "/beers/:id", "/beers/:id/ratings/*rest"]

/-- Another spelling of the route for a beer. -/
def beerVariant : Endpoint Unit × List (Layer Unit) :=
  (⟨.get, "//", "//beers/\x7bname\x7d", fun _ _ => .done (.ok {})⟩, [])

/-- A registration for another method. -/
def beerPost : Endpoint Unit × List (Layer Unit) := (⟨.post, "", "/beers/:id", fun _ _ => .done (.ok {})⟩, [])

theorem no_route_shadowed_beers :
    (registerAll { layers := [] } (beerPaths.map plainRoute)).RefusedBy beerVariant ∧
    (∃ req, req.params = [("id", "7")] ∧
      Accepted ((registerAll { layers := [] } (beerPaths.map plainRoute)).attempt beerVariant).2.routes
        (pathRequest "/beers/7") (chainOf [] (plainRoute "/beers/:id")) req ∧
      Names (plainRoute "/beers/:id") (req.params.map Prod.fst)) ∧
    ((registerAll { layers := [] } (beerPaths.map plainRoute)).attempt beerPost).1 =
      ((registerAll { layers := [] } []).attempt beerPost).1 := by
  obtain ⟨shadowed, alone⟩ := no_route_shadowed (σ := Unit) []
  have succeeded : ((Route.Table.after {} ([plainRoute "/beers/new"].map registration)).attempt
      (registration (plainRoute "/beers/:id"))).1 = .ok () := by decide +kernel
  have ok : ((registerAll { layers := [] } [plainRoute "/beers/new"]).attempt (plainRoute "/beers/:id")).1 =
      .ok () := by
    rw [attempt_eq, succeeded]
    rfl
  have whole : (registration (plainRoute "/beers/:id")).WholeParameters := by decide +kernel
  have variant : (registration beerVariant).VariantOf (registration (plainRoute "/beers/:id")) :=
    ⟨rfl, by decide +kernel, by decide +kernel⟩
  obtain ⟨refused, kept⟩ := shadowed _ _ ok whole [plainRoute "/beers/:id/ratings/*rest"] beerVariant variant
  have accepted : Accepted (endpointTable Prod.fst {} (beerPaths.map plainRoute)) (pathRequest "/beers/7")
      (plainRoute "/beers/:id") (pathReached "/beers/7" [("id", "7")]) :=
    accepted_plainRoute (by decide +kernel)
  have own : ((beerPaths.map plainRoute).filter (·.1.method = beerPost.1.method)).map spelled =
      (([] : List (Endpoint Unit × List (Layer Unit))).filter (·.1.method = beerPost.1.method)).map spelled := rfl
  have split : beerPaths.map plainRoute =
      [plainRoute "/beers/new"] ++ plainRoute "/beers/:id" :: [plainRoute "/beers/:id/ratings/*rest"] := rfl
  rw [split] at accepted own ⊢
  exact ⟨refused, ⟨_, rfl, kept _ _ accepted⟩, alone [] _ _ _ _ rfl own⟩

end JsonService.App
