import CompanyRegistry.Access.Claims

/-!
# Authorisation rules

A rule names an entity and says, for each kind of bearer, either that it is denied or which groups of
conditions a row of the entity may satisfy: every condition of some group. Bound to claims, a rule
becomes a probe, a question that a store of identities answers; a bearer that is denied outright asks
nothing. A bearer of unknown kind cannot be allowed.

The SQL text of a probe quotes every name and carries no value: conditions are numbered `$1`, `$2`, ..
from left to right, across groups, and `Probe.args` lists their values in that order.
-/

namespace CompanyRegistry

/-- A value that conditions compare. Values of different types are unequal. -/
inductive Value where
  | text (s : String)
  | int (i : Int64)
  | bool (b : Bool)
  deriving DecidableEq

/-- A claim that a condition may name. -/
inductive ClaimField where
  | username
  | userId
  deriving DecidableEq, Repr

/-- The value of a claim. -/
def ClaimField.value (f : ClaimField) (c : Claims) : Value :=
  match f with
  | .username => .text c.username
  | .userId => .int c.id

/-- What a column is compared with. -/
inductive Operand where
  | claim (f : ClaimField)
  | literal (v : Value)
  deriving DecidableEq

/-- The value of an operand. -/
def Operand.value (o : Operand) (c : Claims) : Value :=
  match o with
  | .claim f => f.value c
  | .literal v => v

/-- How a column is compared. -/
inductive Comparator where
  | equal
  | unequal
  deriving DecidableEq, Repr

namespace Comparator

/-- The comparator in SQL. -/
def sql : Comparator → String
  | .equal => "="
  | .unequal => "<>"

/-- Whether a comparison holds. -/
def holds : Comparator → Value → Value → Bool
  | .equal, a, b => a = b
  | .unequal, a, b => a ≠ b

end Comparator

/-- A comparison of a column, with what an `α` says. -/
structure Comparison (α : Type) where
  column : String
  comparator : Comparator
  operand : α
  deriving DecidableEq

/-- A condition of a rule. -/
abbrev Condition := Comparison Operand

/-- Conditions that must all hold. -/
abbrev Group := List Condition

/-- The table whose rows are asked, and the name it goes by. -/
structure Entity where
  table : String
  shortName : String
  deriving DecidableEq

/-- What a rule says of one kind of bearer. -/
inductive Policy where
  | deny
  | allow (groups : List Group)
  deriving DecidableEq

/-- Allows what satisfies some group; no group, no one. -/
def Policy.ofGroups : List Group → Policy
  | [] => .deny
  | groups => .allow groups

/-- A named rule. -/
structure Rule where
  name : String
  entity : Entity
  user : Policy
  apiKey : Policy
  deriving DecidableEq

/-- A rule bound to claims. -/
structure Probe where
  rule : String
  entity : Entity
  groups : List (List (Comparison Value))
  deriving DecidableEq

namespace Rule

/-- A rule that denies everyone. -/
def denyAll (name : String) (entity : Entity) : Rule := ⟨name, entity, .deny, .deny⟩

/-- The rule with another policy for a kind of bearer; for an unknown kind nothing changes. -/
def withPolicy (r : Rule) (s : Subject) (p : Policy) : Rule :=
  match s with
  | .user => { r with user := p }
  | .apiKey => { r with apiKey := p }
  | .other => r

/-- Allows a kind of bearer what satisfies some group. -/
def allow (r : Rule) (s : Subject) (groups : List Group) : Rule := r.withPolicy s (.ofGroups groups)

/-- Denies a kind of bearer. -/
def deny (r : Rule) (s : Subject) : Rule := r.withPolicy s .deny

/-- What the rule says of a kind of bearer. -/
def policy (r : Rule) : Subject → Policy
  | .user => r.user
  | .apiKey => r.apiKey
  | .other => .deny

/-- A condition with the value that claims give it. -/
def bindCondition (claims : Claims) (c : Condition) : Comparison Value :=
  ⟨c.column, c.comparator, c.operand.value claims⟩

/-- The probe of a bearer; `none` if its kind is denied. -/
def bind (r : Rule) (claims : Claims) : Option Probe :=
  match r.policy claims.subject with
  | .deny => none
  | .allow groups => some ⟨r.name, r.entity, groups.map (·.map (bindCondition claims))⟩

/-- The user of the token is still known, by name or by number. -/
def activeUser : Rule :=
  ((denyAll "active_user" ⟨"user", "u"⟩).allow .user [
    [⟨"username", .equal, .claim .username⟩],
    [⟨"id", .equal, .claim .userId⟩]]).deny .apiKey

end Rule

/-- The values of a probe's conditions, in the order of their numbers. -/
def Probe.args (p : Probe) : List Value := p.groups.flatten.map (·.operand)

/-! ### SQL -/

namespace Sql

/-- A quoted name: a quote inside is written twice. -/
def quoteName (name : String) : List Char :=
  '"' :: name.toList.flatMap (fun c => if c = '"' then ['"', '"'] else [c]) ++ ['"']

/-- Texts with a separator between. -/
def joined (separator : List Char) : List (List Char) → List Char
  | [] => []
  | [t] => t
  | t :: r => t ++ separator ++ joined separator r

/-- A condition, with the number of its value. -/
def condition (shortName : String) (number : Nat) (c : Comparison α) : List Char :=
  '(' :: quoteName shortName ++ '.' :: quoteName c.column ++ ' ' :: c.comparator.sql.toList ++
    ' ' :: '$' :: Decimal.digits number ++ [')']

/-- The conditions of a group, numbered from `first` on. -/
def conditions (shortName : String) (first : Nat) : List (Comparison α) → List (List Char)
  | [] => []
  | c :: r => condition shortName first c :: conditions shortName (first + 1) r

/-- A group: its conditions joined by `AND`, or `TRUE` without any. -/
def group (shortName : String) (first : Nat) (cs : List (Comparison α)) : List Char :=
  match cs with
  | [] => "(TRUE)".toList
  | _ => '(' :: joined " AND ".toList (conditions shortName first cs) ++ [')']

/-- The groups, numbered on from one to the next. -/
def groups (shortName : String) (first : Nat) : List (List (Comparison α)) → List (List Char)
  | [] => []
  | g :: r => group shortName first g :: groups shortName (first + g.length) r

/-- The query that counts at most one row satisfying some group. -/
def query (e : Entity) (gs : List (List (Comparison α))) : List Char :=
  "SELECT count(*) FROM (SELECT 1 FROM ".toList ++ quoteName e.table ++ " AS ".toList ++
    quoteName e.shortName ++ " WHERE ".toList ++ joined " OR ".toList (groups e.shortName 1 gs) ++
    " LIMIT 1) AS probe".toList

end Sql

/-- The SQL text of a probe. -/
def Probe.sql (p : Probe) : String := String.ofList (Sql.query p.entity p.groups)

/-- The SQL text of a policy. -/
def Rule.sql (r : Rule) (groups : List Group) : String := String.ofList (Sql.query r.entity groups)

end CompanyRegistry
