import CompanyRegistry.Access.Validator
import CompanyRegistry.Company.Basic
import CompanyRegistry.Rpc.Message
import CompanyRegistry.Store.Basic

/-!
# Statuses

How a call fails: a code of the contract and a message. Each cause of a failure has one status
(`ofAuthError`, `ofFailure`, ..); causes inside the service are not shown to callers.
-/

namespace CompanyRegistry.Rpc

/-- The codes of the contract, in the order of their numbers from zero. -/
inductive Code where
  | ok
  | cancelled
  | unknown
  | invalidArgument
  | deadlineExceeded
  | notFound
  | alreadyExists
  | permissionDenied
  | resourceExhausted
  | failedPrecondition
  | aborted
  | outOfRange
  | unimplemented
  | internal
  | unavailable
  | dataLoss
  | unauthenticated
  deriving DecidableEq, Repr

namespace Code

/-- Every code, in the order of their numbers. -/
def all : List Code := [
  .ok, .cancelled, .unknown, .invalidArgument, .deadlineExceeded, .notFound, .alreadyExists,
  .permissionDenied, .resourceExhausted, .failedPrecondition, .aborted, .outOfRange, .unimplemented,
  .internal, .unavailable, .dataLoss, .unauthenticated]

/-- The number of a code. -/
def number (c : Code) : Nat := all.idxOf c

/-- The code with this number; a number without one is `unknown`. -/
def ofNumber (n : Int) : Code :=
  if 0 ≤ n then all.getD n.toNat .unknown else .unknown

/-- The name of a code. -/
def name : Code → String
  | .ok => "ok"
  | .cancelled => "cancelled"
  | .unknown => "unknown"
  | .invalidArgument => "invalid_argument"
  | .deadlineExceeded => "deadline_exceeded"
  | .notFound => "not_found"
  | .alreadyExists => "already_exists"
  | .permissionDenied => "permission_denied"
  | .resourceExhausted => "resource_exhausted"
  | .failedPrecondition => "failed_precondition"
  | .aborted => "aborted"
  | .outOfRange => "out_of_range"
  | .unimplemented => "unimplemented"
  | .internal => "internal"
  | .unavailable => "unavailable"
  | .dataLoss => "data_loss"
  | .unauthenticated => "unauthenticated"

end Code

/-- How a call fails. -/
structure Status where
  code : Code
  message : String
  deriving DecidableEq, Repr

namespace Status

/-- The request is wrong. -/
def invalidArgument (message : String) : Status := ⟨.invalidArgument, message⟩

/-- The caller is not known. -/
def unauthenticated (message : String) : Status := ⟨.unauthenticated, message⟩

/-- The service itself fails. -/
def internal (message : String) : Status := ⟨.internal, message⟩

/-- The status of a request that is not authorised. -/
def ofAuthError (e : AuthError) : Status :=
  if e.isInternal then internal "authorization check failed"
  else unauthenticated ("authentication failed: " ++ e.message)

/-- The status of an operation on the store that fails. -/
def ofFailure : Store.Failure → Status
  | f@(.notFound) => ⟨.notFound, f.message⟩
  | f@(.alreadyExists _) => ⟨.alreadyExists, f.message⟩
  | .backend _ => internal "storage error"

/-- The status of a text that is no identifier. -/
def ofIdDefect (d : Company.Id.Defect) : Status :=
  invalidArgument ("bad value: invalid identifier: CompanyId: " ++ d.message)

/-- The status of a company that breaks a limit. -/
def ofDefect (d : Company.Defect) : Status := invalidArgument ("validation failed: " ++ d.message)

/-- The status of a number that stands for no legal form. -/
def ofUnknownKind (u : UnknownKind) : Status :=
  invalidArgument ("unknown company type: " ++ String.ofList (Decimal.text u.number.toInt))

end Status

end CompanyRegistry.Rpc
