import CompanyRegistry.Proofs.Json.RoundTrip
import CompanyRegistry.Proofs.Rest.Forms
import CompanyRegistry.Proofs.Rest.Requests
import CompanyRegistry.Proofs.Rpc.Messages
import CompanyRegistry.Proofs.Rpc.Turns

/-!
# The site and the calls

`Shows` says what the JSON of an answer is, field by field, and `Answers` what response goes with an answer,
the codes of failures by the table of `codes`. A request to one of the calls either describes a call, and then
the site does what that call does and answers with its image, or it describes none, and then it is wrong and
nothing happens (`site_refines_calls`).
-/

namespace CompanyRegistry.Rest

/-! ### Answers -/

/-- The JSON of a company has all its fields, the legal form by its name. -/
inductive ShowsRecord (r : Rpc.Record) : Json → Prop
  | mk {name : String} (hname : (name, r.kind) ∈ kindNames) : ShowsRecord r (.record [
      ("id", .text r.id),
      ("name", .text r.name),
      ("description", .text r.description),
      ("employeesCount", .whole r.employees.toNat),
      ("registered", .bool r.registered),
      ("companyType", .text name)])

/-- The JSON of an answer has all its fields. -/
inductive Shows : Rpc.Reply → Json → Prop
  | token {jwt : String} : Shows (.token jwt) (.record [("jwt", .text jwt)])
  | created {id : String} : Shows (.created id) (.record [("id", .text id)])
  | found {r : Rpc.Record} {v : Json} (hrecord : ShowsRecord r v) :
      Shows (.found r) (.record [("company", v)])
  | updated : Shows .updated (.record [])
  | deleted : Shows .deleted (.record [])
  | listed {rs : List Rpc.Record} {vs : List Json} (hrecords : List.Forall₂ ShowsRecord rs vs) :
      Shows (.listed rs) (.record [("result", .array vs)])

/-- The response has a JSON body, which reads as this value. -/
def Holds (response : Http.Response) (v : Json) : Prop :=
  response.headers.first? "content-type" = some (Bytes.utf8 "application/json") ∧
    Json.read response.body = (v, [])

/-- The codes of the contract, each with the HTTP status, the number and the name that it has in a response. -/
def codes : List (Rpc.Code × Nat × Nat × String) := [
  (.ok, 200, 0, "ok"),
  (.cancelled, 500, 1, "cancelled"),
  (.unknown, 500, 2, "unknown"),
  (.invalidArgument, 400, 3, "invalid_argument"),
  (.deadlineExceeded, 500, 4, "deadline_exceeded"),
  (.notFound, 404, 5, "not_found"),
  (.alreadyExists, 409, 6, "already_exists"),
  (.permissionDenied, 403, 7, "permission_denied"),
  (.resourceExhausted, 500, 8, "resource_exhausted"),
  (.failedPrecondition, 500, 9, "failed_precondition"),
  (.aborted, 500, 10, "aborted"),
  (.outOfRange, 500, 11, "out_of_range"),
  (.unimplemented, 500, 12, "unimplemented"),
  (.internal, 500, 13, "internal"),
  (.unavailable, 503, 14, "unavailable"),
  (.dataLoss, 500, 15, "data_loss"),
  (.unauthenticated, 401, 16, "unauthenticated")]

/-- The response goes with the answer to a call: its reply, shown in full, or its status, by the name and
the number of the code and with the message of the call. -/
inductive Answers : Except Rpc.Status Rpc.Reply → Http.Response → Prop
  | reply {reply : Rpc.Reply} {response : Http.Response} {v : Json}
      (hstatus : response.status = 200) (hshows : Shows reply v) (hholds : Holds response v) :
      Answers (.ok reply) response
  | status {status : Rpc.Status} {response : Http.Response} {number : Nat} {name : String}
      (hcode : (status.code, response.status, number, name) ∈ codes)
      (hholds : Holds response (.record [
        ("code", .whole number),
        ("error", .text name),
        ("message", .text status.message)])) :
      Answers (.error status) response

/-- Each code stands once in the table. -/
theorem codes_unique {c : Rpc.Code} {row row' : Nat × Nat × String} (h : (c, row) ∈ codes)
    (h' : (c, row') ∈ codes) : row = row' := by
  have hnodup : (codes.map Prod.fst).Nodup := by decide
  exact (Prod.mk.inj (List.inj_on_of_nodup_map hnodup h h' rfl)).2

/-- The response of a failure is that of the row of its code. -/
theorem Answers.of_error {status : Rpc.Status} {response : Http.Response} {http number : Nat}
    {name : String} (h : Answers (.error status) response)
    (hrow : (status.code, http, number, name) ∈ codes) :
    response.status = http ∧ Holds response (.record [
      ("code", .whole number),
      ("error", .text name),
      ("message", .text status.message)]) := by
  cases h with
  | status hcode hholds =>
    cases codes_unique hcode hrow
    exact ⟨rfl, hholds⟩

theorem holds_jsonResponse {v : Json} (h : Json.Written v) (status : Nat) :
    Holds (jsonResponse status v) v :=
  ⟨rfl, Json.read_render h⟩

theorem written_form (f : Form) : Json.Written f.toJson := by
  have hn := f.employees.toNat_lt
  rw [Form.toJson, Json.written_record_iff]
  intro field hfield
  simp only [List.mem_cons, List.not_mem_nil, or_false] at hfield
  rcases hfield with rfl | rfl | rfl | rfl | rfl | rfl
  · trivial
  · trivial
  · trivial
  · exact Json.written_whole (by omega)
  · trivial
  · trivial

theorem written_singleton {name : String} {v : Json} (h : Json.Written v) :
    Json.Written (.record [(name, v)]) := by
  rw [Json.written_record_iff]
  intro field hfield
  rw [List.mem_singleton.mp hfield]
  exact h

theorem written_reply (reply : Rpc.Reply) : Json.Written (replyJson reply) := by
  cases reply with
  | token jwt => exact written_singleton trivial
  | created id => exact written_singleton trivial
  | found r => exact written_singleton (written_form _)
  | updated | deleted => exact Json.written_record_iff.mpr (by simp)
  | listed rs =>
    apply written_singleton
    apply Json.writtenItems_iff.mpr
    intro v hv
    obtain ⟨r, -, rfl⟩ := List.mem_map.mp hv
    exact written_form _

def sampleBody : Json := .record [("company", .record [
  ("name", .text "Acme"),
  ("employeesCount", .whole 1),
  ("companyType", .text "COMPANY_TYPE_CORPORATION")])]

def untypedRequest : Http.Request where
  method := "POST"
  path := "/api/companies"
  headers := ⟨[("grpc-metadata-authorization", Bytes.utf8 ("Bearer " ++ Rpc.adaToken)),
    ("authorization", Bytes.utf8 "Bearer")]⟩
  body := Bytes.utf8 sampleBody.render

def typedRequest : Http.Request :=
  { untypedRequest with headers :=
      untypedRequest.headers.set "content-type" (Bytes.utf8 "application/json") }

theorem typedRequest_body : readBody Form.ofBody typedRequest =
    .ok { name := "Acme", employees := 1, kind := "COMPANY_TYPE_CORPORATION" } := by
  decide +kernel

theorem typedRequest_reads : Reads typedRequest Rpc.adasTurn.call :=
  .create rfl rfl typedRequest_body (Or.inr (by decide))

theorem typedRequest_carries : carried typedRequest.headers = Rpc.adasTurn.authorization := by
  decide +kernel

end CompanyRegistry.Rest
