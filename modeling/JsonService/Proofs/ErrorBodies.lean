import JsonService.Proofs.Json.Documents
import JsonService.Proofs.Json.Printing
import JsonService.Proofs.Layers.Run

/-!
# Error bodies read back

The body that reports a failure is read back as what it tells of the failure, whatever characters the texts in it have
and however many fields failed. A body without fields, one with an empty list of them and one with some are three
different bodies.

**Results.**
* `FieldError.reads`, `FieldErrors.reads`, `ErrorBody.reads`: the typed readers take what the printer writes.
* `ErrorBody.parse_render`, `FieldErrors.parse_render`: the texts are read back.
* `error_bodies_read_back`.
-/
namespace JsonService

open Json (Document)
open Json.Document (Reads reads_text reads_list)

/-! ## Typed readers -/

theorem FieldError.reads (e : FieldError) : FieldError.record.document.Reads e.toJson.kinds e := by
  have field := (reads_text "a string" e.field).map fun s (e : FieldError) => { e with field := s }
  have error := (reads_text "a string" e.error).map fun s (e : FieldError) => { e with error := s }
  refine Document.Record.Fills.reads (.member rfl (by simp) field (.member rfl (by simp) error (.done ?_)))
  simp [record]

theorem FieldErrors.reads (es : FieldErrors) : FieldErrors.document.Reads es.toJson.kinds es :=
  reads_list FieldError.reads es

theorem ErrorBody.reads (b : ErrorBody) : ErrorBody.record.document.Reads b.toJson.kinds b := by
  obtain ⟨error, fields⟩ := b
  have first := (reads_text "a string" error).map fun s (b : ErrorBody) => { b with error := s }
  cases fields with
  | none =>
    refine Document.Record.Fills.reads (.member rfl (by simp) first (.done ?_))
    simp [record]
  | some fields =>
    have there : (Document.optional FieldErrors.document).Reads fields.toJson.kinds (some fields) :=
      (FieldErrors.reads fields).optional (by simp)
    have second := there.map fun fs (b : ErrorBody) => { b with fields := fs }
    refine Document.Record.Fills.reads (.member rfl (by simp) first (.member rfl (by simp) second (.done ?_)))
    simp [record]

/-! ## Texts -/

theorem FieldErrors.numbers_toJson (es : FieldErrors) : es.toJson.numbers = [] := by
  rw [toJson, Json.numbers]
  induction es with
  | nil => rfl
  | cons e es ih => simp [Json.numbersOfItems, FieldError.toJson, Json.numbers, Json.numbersOfMembers, ih]

theorem ErrorBody.numbers_toJson (b : ErrorBody) : b.toJson.numbers = [] := by
  obtain ⟨error, fields⟩ := b
  cases fields with
  | none => rfl
  | some fields => simp [toJson, Json.numbers, Json.numbersOfMembers, fields.numbers_toJson]

/-- The text of a value without numbers is read as what the tokens of the value make. -/
theorem Json.Document.parse_render {α : Type} {d : Document α} {v : Json} {a : α} (reads : d.Reads v.kinds a)
    (numbers : v.numbers = []) : d.parse (Text.Utf8.bytes v.render) = .ok a := by
  rw [Json.bytes_render]
  exact parse_reads (Json.written_chars v (by simp [numbers])).bare reads

/-- Any body is read back from its text, be its fields absent, none or some. -/
theorem ErrorBody.parse_render (b : ErrorBody) : ErrorBody.parse (Text.Utf8.bytes b.toJson.render) = .ok b :=
  Document.parse_render b.reads b.numbers_toJson

theorem FieldErrors.parse_render (es : FieldErrors) :
    FieldErrors.document.parse (Text.Utf8.bytes es.toJson.render) = .ok es :=
  Document.parse_render es.reads es.numbers_toJson

theorem FieldErrors.depth_toJson (es : FieldErrors) : es.toJson.depth ≤ 2 := by
  rw [toJson, Json.depth]
  induction es with
  | nil => decide
  | cons e es ih =>
    simp only [List.map_cons, Json.depthOfItems, FieldError.toJson, Json.depth, Json.depthOfMembers]
    omega

/-- Without its type the text is a plain array with one object for each error, in their order. -/
theorem FieldErrors.parse_plain (es : FieldErrors) : Json.parse (Text.Utf8.bytes es.toJson.render) =
    .ok (.list (es.map fun e => .object [("error", .text e.error), ("field", .text e.field)])) := by
  have depth : es.toJson.depth < Json.Reader.depthLimit := Nat.lt_of_le_of_lt es.depth_toJson (by decide)
  have plain : Json.canonical ∘ FieldError.toJson =
      fun e : FieldError => .object [("error", .text e.error), ("field", .text e.field)] := by
    funext e
    have ordered : "error" < "field" := by decide
    have other : "error" ≠ "field" := by decide
    have gathered : ∀ a b : Json, Entries.gather [("field", a), ("error", b)] = [("error", b), ("field", a)] := by
      intro a b
      simp only [Entries.gather, Entries.gatherInto, List.foldl_cons, List.foldl_nil, Entries.insert, if_neg other,
        if_pos ordered]
    rw [Function.comp_apply, FieldError.toJson, Json.canonical]
    exact congrArg Json.object (gathered _ _)
  rw [Json.parse_render (by simp [es.numbers_toJson]) depth, toJson, Json.canonical, Json.canonicalItems_eq,
    List.map_map, plain]

/-! ## Failures -/

/-- A client that reads the body of the answer to a failure finds this in it. -/
def Failure.Tells (e : Failure) (b : ErrorBody) : Prop := ∀ {σ : Type} (w : World σ), ∃ res w',
  (respondFailure e).run w = (.returned res, w') ∧ ErrorBody.parse res.body = .ok b

theorem Failure.tells_ofFailure (e : Failure) : e.Tells (.ofFailure e) := by
  intro σ w
  refine ⟨e.response, { w with request.status := some e.status }, rfl, ?_⟩
  simp only [response, Response.Builder.json, Response.Builder.finish]
  exact ErrorBody.parse_render (.ofFailure e)

/-- What a client finds in the bodies of the answers to all failures but shutdowns. -/
structure FailuresTold : Prop where
  validation : ∀ f fs, (Failure.validation (f :: fs)).Tells
    { error := "data validation error", fields := some (f :: fs) }
  notFound : ∀ m, (Failure.notFound m).Tells { error := m }
  invalidId : ∀ m, (Failure.invalidId m).Tells { error := m }
  request : ∀ status m, (Failure.request status m).Tells { error := m }
  /-- Nothing of the failure itself. -/
  noFields : (Failure.validation []).Tells { error := "Internal Server Error" }
  unexpected : ∀ m, (Failure.unexpected m).Tells { error := "Internal Server Error" }

theorem failuresTold : FailuresTold where
  validation _ _ := Failure.tells_ofFailure _
  notFound _ := Failure.tells_ofFailure _
  invalidId _ := Failure.tells_ofFailure _
  request _ _ := Failure.tells_ofFailure _
  noFields := Failure.tells_ofFailure _
  unexpected _ := Failure.tells_ofFailure _

/-- Bodies that report a failure are read back as what they should tell of it; so is any body, and any list of field
errors, which is written as a plain array. -/
theorem error_bodies_read_back :
    FailuresTold ∧
    (∀ b : ErrorBody, ErrorBody.parse (Text.Utf8.bytes b.toJson.render) = .ok b) ∧
    ∀ es : FieldErrors,
      FieldErrors.document.parse (Text.Utf8.bytes es.toJson.render) = .ok es ∧
      Json.parse (Text.Utf8.bytes es.toJson.render) =
        .ok (.list (es.map fun e => .object [("error", .text e.error), ("field", .text e.field)])) :=
  ⟨failuresTold, ErrorBody.parse_render, fun es => ⟨es.parse_render, es.parse_plain⟩⟩

end JsonService
