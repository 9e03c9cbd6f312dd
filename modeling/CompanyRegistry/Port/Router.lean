import CompanyRegistry.Http.Cors
import CompanyRegistry.Rpc.Exchange

/-!
# One port for two protocols

A request makes a call of the contract, or is for the JSON side. Which one is a matter of its version and
its content type alone (`isRpc`). The JSON side is installed once, after the router has started; until
then it answers "not implemented". The policy for other origins concerns the JSON side only.
-/

namespace CompanyRegistry.Port

open Http

/-- Something that answers requests and may change the server. -/
abbrev Handler := Rpc.Moment → Request → Rpc.Server → Response × Rpc.Server

/-- Whether a request makes a call: it is of version 2, and its first content type is printable and
names the protocol of calls. -/
def isRpc (version : Version) (headers : Headers) : Bool :=
  version = .v2 && match (headers.first? "content-type").bind headerText? with
    | some t => Bytes.occursIn Rpc.bodyType (Bytes.utf8 t)
    | none => false

/-- A router: the side of the calls, the JSON side, if it is installed, and the policy for other origins, if
there is one. -/
structure Router where
  calls : Handler := Rpc.exchange
  cors : Option Cors := none
  rest : Option Handler := none

namespace Router

/-- Installs the JSON side, unless one is installed. -/
def install (r : Router) (h : Handler) : Bool × Router :=
  match r.rest with
  | none => (true, { r with rest := some h })
  | some _ => (false, r)

/-- Answers a request that makes no call. -/
def handleRest (r : Router) (m : Rpc.Moment) (q : Request) (s : Rpc.Server) : Response × Rpc.Server :=
  match r.rest, r.cors with
  | none, _ => (.bare 501, s)
  | some h, none => h m q s
  | some h, some cors =>
    if q.method = "OPTIONS" then (cors.preflight, s)
    else
      let (response, s) := h m q s
      ({ response with headers := cors.apply response.headers }, s)

/-- Answers a request. -/
def handle (r : Router) : Handler := fun m q s =>
  if isRpc q.version q.headers then r.calls m q s else r.handleRest m q s

end Router

end CompanyRegistry.Port
