import CompanyRegistry.Http.Percent
import CompanyRegistry.Rest.Form

/-!
# Reading requests

A JSON body has a JSON content type and at most two mebibytes, and holds one value; what follows the
value is not read. A query is read like a JSON form, its values from their texts.
-/

namespace CompanyRegistry.Rest

/-! ### Bodies -/

/-- Why a body cannot be read. -/
inductive BodyFault where
  | contentType
  | tooLong
  | json (fault : Json.Fault)
  deriving DecidableEq, Repr

/-- The text of a fault. -/
def BodyFault.message : BodyFault → String
  | .contentType => "Expected request with `Content-Type: application/json`"
  | .tooLong => "Failed to buffer the request body: length limit exceeded"
  | .json .malformed => "Failed to parse the request body as JSON"
  | .json .mismatched => "Failed to deserialize the JSON body into the target type"

/-- The most octets of a body. -/
def longestBody : Nat := 2097152

/-- Whether a character may stand in a name of a content type. -/
def isTypeChar (c : Char) : Bool := c.isAlphanum || "!#$&-^_.+%*'".toList.contains c

/-- A name of a content type. -/
def isTypeName (cs : List Char) : Bool := cs ≠ [] && cs.all isTypeChar

/-- Whether a parameter of a content type is a name with a value; an empty one is passed over. -/
def isParameter (cs : List Char) : Bool :=
  let cs := cs.dropWhile (· = ' ')
  cs = [] || (isTypeName (cs.takeWhile (· ≠ '=')) && cs.contains '=')

/-- Whether a content type is `application/json` or `application/..+json`, in any case and with any
parameters. -/
def isJsonType (text : String) : Bool :=
  match Http.pieces ';' (text.toList.map Char.toLower) with
  | [] => false
  | essence :: parameters =>
    let (type, rest) := essence.span (· ≠ '/')
    let subtype := (rest.drop 1).reverse.dropWhile (· = ' ') |>.reverse
    type = "application".toList && isTypeName subtype &&
      (subtype = "json".toList || "+json".toList.isSuffixOf subtype) && parameters.all isParameter

/-- Whether a request says that its body is JSON. -/
def saysJson (h : Http.Headers) : Bool :=
  match (h.first? "content-type").bind Http.headerText? with
  | some t => isJsonType t
  | none => false

/-- Reads the body of a request. -/
def readBody (decode : Json.Decoder α) (q : Http.Request) : Except BodyFault α :=
  if saysJson q.headers = false then .error .contentType
  else if longestBody < q.body.length then .error .tooLong
  else (Json.decodeStart decode q.body).mapError .json

/-- The name and the password of a login. -/
structure Credentials where
  user : String := ""
  password : String := ""
  deriving DecidableEq, Repr

/-- Reads the name and the password of a login. -/
def Credentials.ofJson : Json.Decoder Credentials := fun v => do
  let found ← Json.find [.of "user" Json.asText, .of "password" Json.asText] v
  return {
    user := ← found.withDefault "user" Json.asText ""
    password := ← found.withDefault "password" Json.asText "" }

/-! ### Queries -/

/-- The text for a query that cannot be read. -/
def queryFault : String := "Failed to deserialize query string"

/-- A truth value of a query. -/
def readBool? : String → Option Bool
  | "true" => some true
  | "false" => some false
  | _ => none

/-- A number of a query. -/
def readU32? (s : String) : Option UInt32 :=
  (Decimal.plain? Decimal.maxU32 s.toList).map UInt32.ofNat

/-- Lays a name with its value over a question. -/
def layPair (f : QueryForm) (pair : String × String) : Option QueryForm :=
  let (name, value) := pair
  match name with
  | "name" => some { f with name := value }
  | "companyType" => some { f with kind := value }
  | "registered" => (readBool? value).map fun b => { f with registered := some b }
  | "limit" => (readU32? value).map fun n => { f with limit := n }
  | "offset" => (readU32? value).map fun n => { f with offset := n }
  | _ => some f

/-- Reads a query, in which no known name may come twice. -/
def readQuery (query : String) : Option QueryForm :=
  let pairs := Http.queryPairs query
  let known := (pairs.map (·.1)).filter fun n => QueryForm.fields.any (·.name == n)
  if known.Nodup then pairs.foldlM layPair {} else none

end CompanyRegistry.Rest
