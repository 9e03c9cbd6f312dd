import CompanyRegistry.Access.User

/-!
# Claims

What a session token says of its bearer, and from when until when. The window is half open: a token is
valid from its first second on and no longer valid in the second it expires; an empty window is never
valid.
-/

namespace CompanyRegistry

/-- The kind of a token's bearer. A kind this library does not know is `other`. -/
inductive Subject where
  | user
  | apiKey
  | other
  deriving DecidableEq, Repr

namespace Subject

/-- The label of a kind. -/
def label : Subject → String
  | .user => "user"
  | .apiKey => "api_key"
  | .other => "other"

/-- The kind that a label names. -/
def ofLabel (s : String) : Subject :=
  if s = "user" then .user else if s = "api_key" then .apiKey else .other

/-- The kind in JSON. -/
def toJson (s : Subject) : Json := .text s.label

/-- Reads a kind from JSON. -/
def ofJson : Json.Decoder Subject := Json.asVariant fun s => some (ofLabel s)

end Subject

/-- What a token says. Times are seconds from the start of 1970. -/
structure Claims where
  subject : Subject
  id : Int64
  username : String
  issuer : String
  audience : String
  notBefore : Int64
  expires : Int64
  deriving DecidableEq

namespace Claims

/-- The issuer, and the audience, of every token of this register. -/
def authority : String := "as"

/-- Why claims do not hold at a time. -/
inductive Untimely where
  | emptyWindow
  | early
  | late
  deriving DecidableEq, Repr

/-- The text of an untimeliness. -/
def Untimely.message : Untimely → String
  | .emptyWindow => "invalid token time window (exp <= nbf)"
  | .early => "token not yet valid"
  | .late => "token has expired"

/-- Whether the claims hold in a second. -/
def checkWindow (c : Claims) (now : Int) : Except Untimely Unit :=
  if c.expires.toInt ≤ c.notBefore.toInt then .error .emptyWindow
  else if now < c.notBefore.toInt then .error .early
  else if c.expires.toInt ≤ now then .error .late
  else .ok ()

/-- The claims of a session that starts now. `none` past the end of the calendar. -/
def ofSession? (u : User) (now : Instant) : Option Claims :=
  let length := u.sessionLength * 3600
  match Date.ofDayNumber? (now.date.dayNumber + (now.second + length) / 86400) with
  | none => none
  | some _ => some {
      subject := .user
      id := u.id
      username := u.username
      issuer := authority
      audience := authority
      notBefore := Int64.ofInt now.unixSeconds
      expires := Int64.ofInt (now.unixSeconds + length) }

/-- The JSON form. -/
def toJson (c : Claims) : Json := .record [
  ("sub", c.subject.toJson),
  ("id", .whole c.id.toInt),
  ("username", .text c.username),
  ("iss", .text c.issuer),
  ("aud", .text c.audience),
  ("nbf", .whole c.notBefore.toInt),
  ("exp", .whole c.expires.toInt)]

/-- The fields of the JSON form, in their declared order. -/
def fields : List Json.Field := [
  .of "sub" Subject.ofJson,
  .of "id" User.readI64,
  .of "username" Json.asText,
  .of "iss" Json.asText,
  .of "aud" Json.asText,
  .of "nbf" User.readI64,
  .of "exp" User.readI64]

/-- The claims that a record's fields give; a name may be missing. -/
def ofFound (found : Json.Found) : Except Json.Fault Claims := do
  return {
    subject := ← found.required "sub" Subject.ofJson
    id := ← found.required "id" User.readI64
    username := ← found.withDefault "username" Json.asText ""
    issuer := ← found.required "iss" Json.asText
    audience := ← found.required "aud" Json.asText
    notBefore := ← found.required "nbf" User.readI64
    expires := ← found.required "exp" User.readI64 }

/-- Reads claims. -/
def ofJson : Json.Decoder Claims := fun v => do ofFound (← Json.find fields v)

/-- Reads claims as a token carries them: an object, its kind a plain string. -/
def ofPayload : Json.Decoder Claims
  | .object members => do
    let found ← Json.find fields (.object members)
    let _ ← found.required "sub" Json.asText
    ofFound found
  | v => .error (Json.unexpected v)

end Claims

end CompanyRegistry
