import CompanyRegistry.Access.Rule
import CompanyRegistry.Access.Token
import CompanyRegistry.Text.Blank

/-!
# Authorisation of a request

A request is authorised when it carries a token, the token is accepted, and every rule of the list
allows its bearer. The first stage that fails gives the error; rules are asked in order, none after
the first that denies or cannot be asked.
-/

namespace CompanyRegistry

/-- What a request is about to do. -/
inductive Operation where
  | create
  | read
  | update
  | delete
  | list
  | updateProfile
  deriving DecidableEq, Repr

/-- The name of an operation. -/
def Operation.label : Operation → String
  | .create => "Create"
  | .read => "Read"
  | .update => "Update"
  | .delete => "Delete"
  | .list => "List"
  | .updateProfile => "UpdateProfile"

/-- Every operation. -/
def Operation.all : List Operation := [.create, .read, .update, .delete, .list, .updateProfile]

/-- The operation of this name. -/
def Operation.ofLabel? (s : String) : Option Operation := all.find? (·.label == s)

/-- Why a probe has no answer. -/
inductive ProbeError where
  | backend (text : String)
  | unsupported (text : String)
  deriving DecidableEq, Repr

/-- The text of a probe's error. -/
def ProbeError.message : ProbeError → String
  | .backend s => "identity store query failed: " ++ s
  | .unsupported s => "identity store cannot evaluate probe: " ++ s

/-- Why a request is not authorised. -/
inductive AuthError where
  | missingToken
  | invalidToken (cause : Token.Refusal)
  | denied (rule : String) (operation : Operation)
  | query (rule : String) (operation : Operation) (cause : ProbeError)
  deriving DecidableEq, Repr

namespace AuthError

/-- The text of an error. -/
def message : AuthError → String
  | .missingToken => "authentication token is missing"
  | .invalidToken r => r.message
  | .denied rule op => "rule '" ++ rule ++ "' denied " ++ op.label
  | .query rule op e =>
    "rule '" ++ rule ++ "' could not be evaluated for " ++ op.label ++ ": " ++ e.message

/-- Whether the store of identities failed, rather than the request. -/
def isInternal : AuthError → Bool
  | .query .. => true
  | _ => false

end AuthError

/-- Answers probes. -/
abbrev Identities := Probe → Except ProbeError Bool

namespace Validator

/-- The token of an authorisation text: one leading `Bearer ` taken off, then trimmed; an empty one is
missing. -/
def tokenOf? (text : String) : Option String :=
  let cs := text.toList
  let bare := if "Bearer ".toList.isPrefixOf cs then cs.drop 7 else cs
  match Text.trim bare with
  | [] => none
  | t => some (String.ofList t)

/-- Asks the rules in order. -/
def checkRules (ask : Identities) (op : Operation) (claims : Claims) : List Rule → Except AuthError Unit
  | [] => .ok ()
  | r :: rs =>
    match r.bind claims with
    | none => .error (.denied r.name op)
    | some probe =>
      match ask probe with
      | .error e => .error (.query r.name op e)
      | .ok false => .error (.denied r.name op)
      | .ok true => checkRules ask op claims rs

/-- Authorises a request: the claims of its bearer, or the first error. -/
def validate (k : Token.Key) (ask : Identities) (clock now : Int) (token : Option String)
    (op : Operation) (rules : List Rule) : Except AuthError Claims :=
  match token.bind tokenOf? with
  | none => .error .missingToken
  | some t =>
    match Token.decode k clock now t with
    | .error r => .error (.invalidToken r)
    | .ok claims => (checkRules ask op claims rules).map fun _ => claims

end Validator

end CompanyRegistry
