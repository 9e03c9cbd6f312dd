import CompanyRegistry.Access.Validator
import CompanyRegistry.Store.Basic

/-!
# Probing the users

The store answers probes on the entity `user`: whether some user satisfies every condition of some
group. A condition on a column that users do not have cannot be evaluated; it is noticed when it is
reached, user by user, group by group, condition by condition.
-/

namespace CompanyRegistry.Store

/-- The value of a user's column. -/
def column (u : User) (name : String) : Except ProbeError Value :=
  if name = "id" then .ok (.int u.id)
  else if name = "username" then .ok (.text u.username)
  else if name = "is_admin" then .ok (.bool u.isAdmin)
  else if name = "session_ttl" then .ok (.int (Int64.ofInt u.sessionHours.toInt))
  else .error (.unsupported ("user has no column '" ++ name ++ "'"))

/-- Whether a user satisfies every condition, up to the first that it does not. -/
def satisfiesAll (u : User) : List (Comparison Value) → Except ProbeError Bool
  | [] => .ok true
  | c :: cs =>
    match column u c.column with
    | .error e => .error e
    | .ok v => if c.comparator.holds v c.operand then satisfiesAll u cs else .ok false

/-- Whether a user satisfies some group, up to the first that it does. -/
def satisfiesSome (u : User) : List (List (Comparison Value)) → Except ProbeError Bool
  | [] => .ok false
  | g :: gs =>
    match satisfiesAll u g with
    | .error e => .error e
    | .ok true => .ok true
    | .ok false => satisfiesSome u gs

/-- Whether some of the users satisfies some group. -/
def anyUser (groups : List (List (Comparison Value))) : List User → Except ProbeError Bool
  | [] => .ok false
  | u :: us =>
    match satisfiesSome u groups with
    | .error e => .error e
    | .ok true => .ok true
    | .ok false => anyUser groups us

/-- The answer to a probe. -/
def probe (s : Store) (p : Probe) : Except ProbeError Bool :=
  if p.entity.table ≠ "user" then .error (.unsupported ("unknown entity '" ++ p.entity.table ++ "'"))
  else anyUser p.groups s.users

end CompanyRegistry.Store
