import CompanyRegistry.Json.Decoder
import CompanyRegistry.Time.Instant

/-!
# Users

Who may sign in: a name, the stored form of a password, and for how many hours a session lasts. The
JSON form of a user never shows the stored password, though it is read from one.
-/

namespace CompanyRegistry

/-- A user of the register. -/
structure User where
  id : Int64
  username : String
  passwordHash : String
  isAdmin : Bool
  sessionHours : Int32
  createdAt : Instant
  updatedAt : Instant
  deriving DecidableEq

namespace User

/-- Hours of a session where the user has no number of its own. -/
def usualSessionHours : Int := 24

/-- The user's own session length, if it is positive. -/
def ownSessionHours? (u : User) : Option Int :=
  if 0 < u.sessionHours.toInt then some u.sessionHours.toInt else none

/-- The hours a session of the user lasts. -/
def sessionLength (u : User) : Int := u.ownSessionHours?.getD usualSessionHours

/-- The JSON form, without the stored password. -/
def toJson (u : User) : Json := .record [
  ("id", .whole u.id.toInt),
  ("username", .text u.username),
  ("is_admin", .bool u.isAdmin),
  ("session_ttl_hours", .whole u.sessionHours.toInt),
  ("created_at", .text u.createdAt.text),
  ("updated_at", .text u.updatedAt.text)]

/-- A signed number of 64 bits. -/
def readI64 : Json.Decoder Int64 := fun v => (Json.asInt64 v).map Int64.ofInt

/-- A signed number of 32 bits. -/
def readI32 : Json.Decoder Int32 := fun v => (Json.asInt32 v).map Int32.ofInt

/-- An instant. -/
def readInstant : Json.Decoder Instant := Json.asParsed Instant.parse?

/-- The fields of the form that is read, in their declared order. -/
def fields : List Json.Field := [
  .of "id" readI64,
  .of "username" Json.asText,
  .of "password_hash" Json.asText,
  .of "is_admin" Json.asBool,
  .of "session_ttl_hours" readI32,
  .of "created_at" readInstant,
  .of "updated_at" readInstant]

/-- Reads a user. -/
def ofJson : Json.Decoder User := fun v => do
  let found ← Json.find fields v
  return {
    id := ← found.required "id" readI64
    username := ← found.required "username" Json.asText
    passwordHash := ← found.required "password_hash" Json.asText
    isAdmin := ← found.required "is_admin" Json.asBool
    sessionHours := ← found.required "session_ttl_hours" readI32
    createdAt := ← found.required "created_at" readInstant
    updatedAt := ← found.required "updated_at" readInstant }

end User

end CompanyRegistry
