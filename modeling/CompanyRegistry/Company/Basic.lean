import CompanyRegistry.Company.Id
import CompanyRegistry.Company.Kind
import CompanyRegistry.Time.Instant

/-!
# Companies

A company record, the limits it has to keep (`Company.check`) and its JSON form, which is also what
the outside log is told. Lengths count characters.

`Company.ofJson` reads the fields in any order and tolerates unknown ones; every field is due.
-/

namespace CompanyRegistry

/-- A company of the register. -/
structure Company where
  id : Company.Id
  name : String
  description : String
  employees : UInt32
  registered : Bool
  kind : Company.Kind
  createdAt : Instant
  updatedAt : Instant
  deriving DecidableEq

namespace Company

/-- The most characters of a name. -/
def maxName : Nat := 15

/-- The most characters of a description. -/
def maxDescription : Nat := 3000

/-- Why a record is not acceptable. -/
inductive Defect where
  | nameMissing
  | nameTooLong
  | descriptionTooLong
  | noEmployees
  | unknownKind (label : String)
  deriving DecidableEq, Repr

/-- The text of a defect. -/
def Defect.message : Defect → String
  | .nameMissing => "name is required"
  | .nameTooLong => "name must be at most 15 characters"
  | .descriptionTooLong => "description must be at most 3000 characters"
  | .noEmployees => "employees count must be positive"
  | .unknownKind s => "unknown company type: " ++ s

/-- The first limit that a record breaks. -/
def check (c : Company) : Except Defect Unit :=
  if Text.allBlank c.name then .error .nameMissing
  else if c.name.length > maxName then .error .nameTooLong
  else if c.description.length > maxDescription then .error .descriptionTooLong
  else if c.employees = 0 then .error .noEmployees
  else .ok ()

/-- The record, if it keeps the limits. -/
def checked (c : Company) : Except Defect Company := (c.check).map fun _ => c

/-- The legal form with this label. -/
def kindOf (label : String) : Except Defect Kind :=
  match Kind.ofLabel? label with
  | some k => .ok k
  | none => .error (.unknownKind label)

/-! ### JSON -/

/-- The JSON form of a record. -/
def toJson (c : Company) : Json := .record [
  ("id", .text c.id.text),
  ("name", .text c.name),
  ("description", .text c.description),
  ("employees_count", .whole c.employees.toNat),
  ("registered", .bool c.registered),
  ("kind", c.kind.toJson),
  ("created_at", .text c.createdAt.text),
  ("updated_at", .text c.updatedAt.text)]

/-- A number of 32 bits. -/
def readU32 : Json.Decoder UInt32 := fun v => (Json.asNat Decimal.maxU32 v).map UInt32.ofNat

/-- An identifier, untrimmed. -/
def readId : Json.Decoder Id := Json.asParsed Id.ofText?

/-- An instant. -/
def readInstant : Json.Decoder Instant := Json.asParsed Instant.parse?

/-- The fields of the JSON form, in their declared order. -/
def fields : List Json.Field := [
  .of "id" readId,
  .of "name" Json.asText,
  .of "description" Json.asText,
  .of "employees_count" readU32,
  .of "registered" Json.asBool,
  .of "kind" Kind.ofJson,
  .of "created_at" readInstant,
  .of "updated_at" readInstant]

/-- Reads a record from its JSON form. -/
def ofJson : Json.Decoder Company := fun v => do
  let found ← Json.find fields v
  return {
    id := ← found.required "id" readId
    name := ← found.required "name" Json.asText
    description := ← found.required "description" Json.asText
    employees := ← found.required "employees_count" readU32
    registered := ← found.required "registered" Json.asBool
    kind := ← found.required "kind" Kind.ofJson
    createdAt := ← found.required "created_at" readInstant
    updatedAt := ← found.required "updated_at" readInstant }

/-- The JSON text of a record. -/
def jsonText (c : Company) : String := c.toJson.render

end Company

end CompanyRegistry
