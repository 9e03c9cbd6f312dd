import CompanyRegistry.Access.Claims
import CompanyRegistry.Digest.Sha256
import CompanyRegistry.Text.Base64

/-!
# Session tokens

A token is `header.payload.signature`: the first two are JSON texts in unpadded URL-safe base64, the
last is the keyed SHA-256 digest of `header.payload` in the same writing. Reading checks, in this
order, the form, the header, the algorithm, the signature (as text), the payload, the presence and
the order of its times, the issuer, the audience, and last the window against the caller's time. A token
read is a token whose signature text is the only one that fits its header and payload.
-/

namespace CompanyRegistry

namespace Token

/-- A signing key: any secret but the empty one. -/
structure Key where
  secret : Bytes
  given : secret ≠ []

/-- The key of a secret. -/
def Key.of? (secret : Bytes) : Option Key :=
  if h : secret ≠ [] then some ⟨secret, h⟩ else none

/-- Why a token is not accepted, before its window is looked at. -/
inductive Flaw where
  | shape
  | encoding
  | json
  | algorithm
  | signature
  | missingClaim (name : String)
  | expired
  | immature
  | issuer
  | audience
  deriving DecidableEq, Repr

/-- The text of a flaw. -/
def Flaw.message : Flaw → String
  | .shape => "InvalidToken"
  | .encoding => "Base64 error"
  | .json => "JSON error"
  | .algorithm => "InvalidAlgorithm"
  | .signature => "InvalidSignature"
  | .missingClaim n => "Missing required claim: " ++ n
  | .expired => "ExpiredSignature"
  | .immature => "ImmatureSignature"
  | .issuer => "InvalidIssuer"
  | .audience => "InvalidAudience"

/-- Why a token is refused. -/
inductive Refusal where
  | noSecret
  | invalid (flaw : Flaw)
  | untimely (cause : Claims.Untimely)
  deriving DecidableEq, Repr

/-- The text of a refusal. -/
def Refusal.message : Refusal → String
  | .noSecret => "jwt secret must not be empty"
  | .invalid f => "invalid token: " ++ f.message
  | .untimely u => u.message

/-! ### Writing -/

/-- Octets as a part of a token. -/
def part (b : Bytes) : List Char := Base64.encode Base64.urlSafe .never b

/-- The header of every token written here. -/
def header : Json := .record [("typ", .text "JWT"), ("alg", .text "HS256")]

/-- A JSON value as a part of a token. -/
def jsonPart (v : Json) : List Char := part (Bytes.utf8 v.render)

/-- The text that is signed. -/
def message (c : Claims) : List Char := jsonPart header ++ '.' :: jsonPart c.toJson

/-- The signature of a text. -/
def signature (k : Key) (text : List Char) : List Char :=
  part (Sha256.mac k.secret (Bytes.utf8 (String.ofList text)))

/-- The token of claims. -/
def encode (k : Key) (c : Claims) : String :=
  String.ofList (message c ++ '.' :: signature k (message c))

/-- A token for a session that starts now; `none` past the end of the calendar. -/
def issue? (k : Key) (u : User) (now : Instant) : Option String :=
  (Claims.ofSession? u now).map (encode k)

/-! ### Reading -/

/-- The algorithms that a header may name. -/
def algorithms : List String :=
  ["HS256", "HS384", "HS512", "ES256", "ES384", "RS256", "RS384", "RS512", "PS256", "PS384", "PS512",
   "EdDSA"]

/-- The name of a known algorithm. -/
def readAlgorithm : Json.Decoder String :=
  Json.asVariant fun s => if s ∈ algorithms then some s else none

/-- A string that may be missing or `null`. -/
def optionalText : Json.Decoder (Option String) := Json.asOption Json.asText

/-- The string members that a public key of a type must have. -/
def keyMembers? (type : String) : Option (List String) :=
  if type = "EC" then some ["crv", "x", "y"]
  else if type = "RSA" then some ["n", "e"]
  else if type = "OKP" then some ["crv", "x"]
  else if type = "oct" then some ["k"]
  else none

/-- An embedded public key: an object whose type and members of that type are strings. -/
def checkKey : Json.Decoder Unit
  | .object members => do
    if Json.completeMembers members = false then .error .malformed
    else
      let texts := members.filterMap fun
        | .entry (some n) (.text s) => some (n, s)
        | _ => none
      match (texts.lookup "kty").bind keyMembers? with
      | some needed => if needed.all fun n => (texts.lookup n).isSome then .ok () else .error .mismatched
      | none => .error .mismatched
  | v => .error (Json.unexpected v)

/-- The fields of a header. All but the algorithm may be missing. -/
def headerFields : List Json.Field := [
  .of "typ" optionalText,
  .of "alg" readAlgorithm,
  .of "cty" optionalText,
  .of "jku" optionalText,
  .of "jwk" (Json.asOption checkKey),
  .of "kid" optionalText,
  .of "x5u" optionalText,
  .of "x5c" (Json.asOption (Json.asList Json.asText)),
  .of "x5t" optionalText,
  .of "x5t#S256" optionalText]

/-- The algorithm that a header names. As an array a header has all its fields. -/
def headerAlgorithm : Json.Decoder String := fun v => do
  let found ← Json.find headerFields v
  match v with
  | .array items => if items.length < headerFields.length then .error .mismatched
  | _ => pure ()
  found.required "alg" readAlgorithm

/-- What stands before and after the last point. -/
def splitLast? (cs : List Char) : Option (List Char × List Char) :=
  match cs.reverse.dropWhile (· ≠ '.') with
  | [] => none
  | _ :: before => some (before.reverse, (cs.reverse.takeWhile (· ≠ '.')).reverse)

/-- The JSON text of a part. -/
def readPart (decode : Json.Decoder α) (cs : List Char) : Except Flaw α :=
  match Base64.decode? Base64.urlSafe .never cs with
  | none => .error .encoding
  | some b => (Json.decodeText decode b).mapError fun _ => .json

/-- The checks on claims whose signature is right; `clock` is the second in which they are made. -/
def checkClaims (clock : Int) (c : Claims) : Except Flaw Unit :=
  if c.expires.toInt < 0 then .error (.missingClaim "exp")
  else if c.notBefore.toInt < 0 then .error (.missingClaim "nbf")
  else if c.expires.toInt < clock then .error .expired
  else if clock < c.notBefore.toInt then .error .immature
  else if c.issuer ≠ Claims.authority then .error .issuer
  else if c.audience ≠ Claims.authority then .error .audience
  else .ok ()

/-- Checks form, header, signature and claims of a token, in this order. -/
def verify (k : Key) (clock : Int) (token : String) : Except Flaw Claims :=
  match splitLast? token.toList with
  | none => .error .shape
  | some (text, sign) =>
    match splitLast? text with
    | none => .error .shape
    | some (head, payload) => do
      let algorithm ← readPart headerAlgorithm head
      if algorithm ≠ "HS256" then .error .algorithm
      else if sign ≠ signature k text then .error .signature
      else
        let claims ← readPart Claims.ofPayload payload
        checkClaims clock claims
        return claims

/-- Reads a token. The signature's checks are made at the second `clock`, the window's at `now`. -/
def decode (k : Key) (clock now : Int) (token : String) : Except Refusal Claims :=
  match verify k clock token with
  | .error f => .error (.invalid f)
  | .ok c =>
    match c.checkWindow now with
    | .error u => .error (.untimely u)
    | .ok () => .ok c

end Token

end CompanyRegistry
