import CompanyRegistry.Rest.Body
import CompanyRegistry.Rpc.Server

/-!
# The JSON side of the contract

Each endpoint reads a request as a call of the contract, makes the call with the token that the request
carries, and shows the answer as JSON. A request that cannot be read is answered as wrong and no call is
made.
-/

namespace CompanyRegistry.Rest

/-- The endpoints that make calls; a company's identifier comes from the path. -/
inductive Endpoint where
  | login
  | create
  | list
  | get (id : String)
  | update (id : String)
  | delete (id : String)
  deriving DecidableEq, Repr

/-! ### Tokens -/

/-- The header whose token goes before that of `authorization`. -/
def tokenHeader : String := "grpc-metadata-authorization"

/-- The token that a request carries, if it is printable. -/
def forwardedToken (h : Http.Headers) : Option String :=
  (h.first? tokenHeader <|> h.first? "authorization").bind Http.headerText?

/-- The authorisation of the call that is made for a request. -/
def forwarded (h : Http.Headers) : Option Bytes := (forwardedToken h).map Bytes.utf8

/-! ### Calls and answers -/

/-- The company in the body of a request. -/
def readRecord (q : Http.Request) : Except String Rpc.Record := do
  let form ← (readBody Form.ofBody q).mapError BodyFault.message
  form.toRecord.mapError UnknownName.message

namespace Endpoint

/-- The call that a request makes, or what is wrong with the request. -/
def readCall (e : Endpoint) (q : Http.Request) : Except String Rpc.Call := do
  match e with
  | .login =>
    let c ← (readBody Credentials.ofJson q).mapError BodyFault.message
    return .login c.user c.password
  | .create => return .create (some (← readRecord q))
  | .list =>
    match readQuery (q.query.getD "") with
    | none => .error queryFault
    | some f => return .list (← f.toQuery.mapError UnknownName.message)
  | .get id => return .get id
  | .update id => return .update (some { ← readRecord q with id })
  | .delete id => return .delete id

end Endpoint

/-- The JSON value of an answer. -/
def replyJson : Rpc.Reply → Json
  | .token jwt => .record [("jwt", .text jwt)]
  | .created id => .record [("id", .text id)]
  | .found r => (Form.ofRecord r).toBody
  | .updated | .deleted => .record []
  | .listed rs => .record [("result", .array (rs.map fun r => (Form.ofRecord r).toJson))]

/-- The response for the answer to a call. -/
def answered : Except Rpc.Status Rpc.Reply → Http.Response
  | .ok r => jsonResponse 200 (replyJson r)
  | .error s => failure s

/-- Serves a request to an endpoint. -/
def Endpoint.serve (e : Endpoint) (m : Rpc.Moment) (q : Http.Request) (s : Rpc.Server) :
    Http.Response × Rpc.Server :=
  match e.readCall q with
  | .error text => (badRequest text, s)
  | .ok call =>
    let (answer, s) := s.call m (forwarded q.headers) call
    (answered answer, s)

end CompanyRegistry.Rest
