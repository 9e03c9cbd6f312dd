import CompanyRegistry.Text.Bytes

/-!
# Requests and responses

What travels over HTTP, as far as the service looks at it. Names of headers are kept in lowercase; a
name may have several values, and the first one counts where only one is asked for.
-/

namespace CompanyRegistry.Http

/-- The versions of the protocol. -/
inductive Version where
  | v09
  | v10
  | v11
  | v2
  | v3
  deriving DecidableEq, Repr

/-- Headers, in order. -/
structure Headers where
  entries : List (String × Bytes) := []
  deriving DecidableEq

namespace Headers

/-- Headers whose names may be in any case. -/
def ofList (entries : List (String × Bytes)) : Headers :=
  ⟨entries.map fun (name, value) => (name.map Char.toLower, value)⟩

/-- The values of a name. -/
def values (h : Headers) (name : String) : List Bytes :=
  (h.entries.filter (·.1 == name)).map (·.2)

/-- The first value of a name. -/
def first? (h : Headers) (name : String) : Option Bytes := (h.values name).head?

/-- The headers with one value of a name, in place of those it had. -/
def set (h : Headers) (name : String) (value : Bytes) : Headers :=
  ⟨h.entries.filter (·.1 != name) ++ [(name, value)]⟩

end Headers

/-- Whether an octet is a printable ASCII character or a tab. -/
def isPrintable (b : UInt8) : Bool := (0x20 ≤ b && b < 0x7F) || b == 0x09

/-- The text of a header's value; a value that is not printable has none. -/
def headerText? (value : Bytes) : Option String :=
  if value.all isPrintable then some (Bytes.latin1 value) else none

/-- Whether octets may be a header's value: no control characters but tabs. -/
def isHeaderValue (value : Bytes) : Bool := value.all fun b => (0x20 ≤ b && b != 0x7F) || b == 0x09

/-- A request. -/
structure Request where
  version : Version := .v11
  method : String
  path : String
  query : Option String := none
  headers : Headers := {}
  body : Bytes := []

/-- What stands before the first question mark of a target, and behind it. -/
def splitTarget (target : String) : String × Option String :=
  let (path, rest) := target.toList.span (· ≠ '?')
  (String.ofList path, match rest with
    | [] => none
    | _ :: query => some (String.ofList query))

/-- A response. Trailers follow the body. -/
structure Response where
  status : Nat
  headers : Headers := {}
  body : Bytes := []
  trailers : Headers := {}
  deriving DecidableEq

/-- A response without headers or body. -/
def Response.bare (status : Nat) : Response := { status }

end CompanyRegistry.Http
