import CompanyRegistry.Http.Message
import CompanyRegistry.Json.Decoder
import CompanyRegistry.Rpc.Status

/-!
# The JSON forms

The messages of the contract as JSON: fields in mixed case, legal forms by name. Every field of a form
that is read has a default, every field of one that is written is there.
-/

namespace CompanyRegistry.Rest

/-! ### Legal forms by name -/

/-- The name of a legal form, and of none. -/
def kindName : Option Company.Kind → String
  | none => "COMPANY_TYPE_UNSPECIFIED"
  | some .corporation => "COMPANY_TYPE_CORPORATION"
  | some .nonProfit => "COMPANY_TYPE_NON_PROFIT"
  | some .cooperative => "COMPANY_TYPE_COOPERATIVE"
  | some .soleProprietorship => "COMPANY_TYPE_SOLE_PROPRIETORSHIP"

/-- What the names stand for. -/
def named : List (Option Company.Kind) := none :: Company.Kind.all.map some

/-- The number of a legal form, zero for none. -/
def numberOf (k : Option Company.Kind) : Int32 := (k.map Rpc.kindNumber).getD 0

/-- The name of the legal form with this number; a number without one has the name of none. -/
def nameOfNumber (n : Int32) : String :=
  match Rpc.kindOfNumber n with
  | .ok k => kindName k
  | .error _ => kindName none

/-- Why a name stands for no legal form. -/
structure UnknownName where
  name : String
  deriving DecidableEq, Repr

/-- The text of an unknown name. -/
def UnknownName.message (u : UnknownName) : String := "unknown companyType: " ++ u.name

/-- The number of the legal form with this name; an empty name gives none. -/
def numberOfName (name : String) : Except UnknownName Int32 :=
  if name = "" then .ok 0
  else match named.find? (kindName · == name) with
    | some k => .ok (numberOf k)
    | none => .error ⟨name⟩

/-! ### Companies -/

/-- A company as JSON. -/
structure Form where
  id : String := ""
  name : String := ""
  description : String := ""
  employees : UInt32 := 0
  registered : Bool := false
  kind : String := ""
  deriving DecidableEq, Repr

namespace Form

/-- A record as JSON. -/
def ofRecord (r : Rpc.Record) : Form :=
  ⟨r.id, r.name, r.description, r.employees, r.registered, nameOfNumber r.kind⟩

/-- The record of a form. -/
def toRecord (f : Form) : Except UnknownName Rpc.Record := do
  let kind ← numberOfName f.kind
  return ⟨f.id, f.name, f.description, f.employees, f.registered, kind⟩

/-- The JSON value of a form. -/
def toJson (f : Form) : Json := .record [
  ("id", .text f.id),
  ("name", .text f.name),
  ("description", .text f.description),
  ("employeesCount", .whole f.employees.toNat),
  ("registered", .bool f.registered),
  ("companyType", .text f.kind)]

/-- The fields of a form. -/
def fields : List Json.Field := [
  .of "id" Json.asText,
  .of "name" Json.asText,
  .of "description" Json.asText,
  .of "employeesCount" Company.readU32,
  .of "registered" Json.asBool,
  .of "companyType" Json.asText]

/-- Reads a form. -/
def ofJson : Json.Decoder Form := fun v => do
  let found ← Json.find fields v
  return {
    id := ← found.withDefault "id" Json.asText ""
    name := ← found.withDefault "name" Json.asText ""
    description := ← found.withDefault "description" Json.asText ""
    employees := ← found.withDefault "employeesCount" Company.readU32 0
    registered := ← found.withDefault "registered" Json.asBool false
    kind := ← found.withDefault "companyType" Json.asText "" }

/-- A form in the body of a request or response. -/
def toBody (f : Form) : Json := .record [("company", f.toJson)]

/-- Reads a form in the body of a request. -/
def ofBody : Json.Decoder Form := fun v => do
  let found ← Json.find [.of "company" ofJson] v
  found.withDefault "company" ofJson {}

end Form

/-! ### Questions -/

/-- A question as JSON, or as a query of an address. -/
structure QueryForm where
  name : String := ""
  kind : String := ""
  registered : Option Bool := none
  limit : UInt32 := 0
  offset : UInt32 := 0
  deriving DecidableEq, Repr

namespace QueryForm

/-- The question of a form. -/
def toQuery (f : QueryForm) : Except UnknownName Rpc.Query := do
  let kind ← numberOfName f.kind
  return { name := f.name, kind, registered := f.registered, limit := f.limit, offset := f.offset }

/-- The fields of a form. -/
def fields : List Json.Field := [
  .of "name" Json.asText,
  .of "companyType" Json.asText,
  .of "registered" (Json.asOption Json.asBool),
  .of "limit" Company.readU32,
  .of "offset" Company.readU32]

/-- Reads a form. -/
def ofJson : Json.Decoder QueryForm := fun v => do
  let found ← Json.find fields v
  return {
    name := ← found.withDefault "name" Json.asText ""
    kind := ← found.withDefault "companyType" Json.asText ""
    registered := ← found.withDefault "registered" (Json.asOption Json.asBool) none
    limit := ← found.withDefault "limit" Company.readU32 0
    offset := ← found.withDefault "offset" Company.readU32 0 }

end QueryForm

/-! ### Responses -/

/-- A response with a JSON body. -/
def jsonResponse (status : Nat) (v : Json) : Http.Response :=
  { status
    headers := ⟨[("content-type", Bytes.utf8 "application/json")]⟩
    body := Bytes.utf8 v.render }

/-- The HTTP status of a code. -/
def httpStatus : Rpc.Code → Nat
  | .ok => 200
  | .unauthenticated => 401
  | .permissionDenied => 403
  | .invalidArgument => 400
  | .notFound => 404
  | .alreadyExists => 409
  | .unavailable => 503
  | _ => 500

/-- The JSON value of a status. -/
def statusJson (s : Rpc.Status) : Json := .record [
  ("code", .whole s.code.number),
  ("error", .text s.code.name),
  ("message", .text s.message)]

/-- The response for a status. -/
def failure (s : Rpc.Status) : Http.Response := jsonResponse (httpStatus s.code) (statusJson s)

/-- The response for a request that cannot be read. -/
def badRequest (message : String) : Http.Response := failure (.invalidArgument message)

end CompanyRegistry.Rest
