import CompanyRegistry.Http.Message

/-!
# Requests from other origins

A policy that lets pages of one origin use the service: three headers on every response, and an answer of
its own for the question that browsers ask first.
-/

namespace CompanyRegistry.Http

/-- A policy: the origin that is let in. -/
structure Cors where
  origin : Bytes
  deriving DecidableEq

namespace Cors

/-- The name of the header for the origin. -/
def originName : String := "access-control-allow-origin"

/-- The name of the header for the methods. -/
def methodsName : String := "access-control-allow-methods"

/-- The name of the header for the headers. -/
def headersName : String := "access-control-allow-headers"

/-- The methods that are let in. -/
def methods : Bytes := Bytes.utf8 "POST, GET, OPTIONS, PUT, DELETE"

/-- The headers that are let in. -/
def headers : Bytes :=
  Bytes.utf8 "Accept, Content-Type, Content-Length, Accept-Encoding, Grpc-Metadata-Authorization"

/-- The policy for an origin; there is none for an empty one, or one that no header can hold. -/
def of? (origin : String) : Option Cors :=
  let value := Bytes.utf8 origin
  if value ≠ [] ∧ isHeaderValue value then some ⟨value⟩ else none

/-- The headers of a response with those of the policy, which replace what it had. -/
def apply (c : Cors) (h : Headers) : Headers :=
  ((h.set originName c.origin).set methodsName methods).set headersName headers

/-- The answer to a browser's first question. -/
def preflight (c : Cors) : Response := { status := 200, headers := c.apply {} }

end Cors

end CompanyRegistry.Http
