import CompanyRegistry.Access.Password
import CompanyRegistry.Event.Basic
import CompanyRegistry.Http.Message
import CompanyRegistry.Rpc.Status
import CompanyRegistry.Store.Identities

/-!
# The service

Answers the calls of the contract. A call that changes the register is authorised before anything of its
message is looked at; then its message is read, the store changed, and one event told. A call that is
answered with a status changes nothing and tells nothing.

`Service.handle` is a function of the service, the moment and the call: what it would take from outside
(the clock, an identifier that nobody has used) comes with the `Moment`. What becomes of the event is
none of its business.
-/

namespace CompanyRegistry.Rpc

/-- The parts of the storage that are out of order, each with the reason. -/
structure Outage where
  companies : Option String := none
  users : Option String := none
  identities : Option String := none
  deriving DecidableEq, Repr

/-- All that answers depend on. -/
structure Service where
  key : Token.Key
  store : Store := .empty
  outage : Outage := {}

/-- What a call takes from outside: the clock when it is handled and when its change is stored, and an
identifier that nobody has used. -/
structure Moment where
  now : Instant
  stored : Instant
  fresh : Company.Id

/-- What a call does: its answer, the store after it, and the event it tells. -/
structure Outcome where
  answer : Except Status Reply
  store : Store
  event : Option Event := none

namespace Service

/-! ### Access to the storage -/

/-- A result, if the part of the storage that gives it is in order. -/
def fromStorage (reason : Option String) (r : Except Store.Failure α) : Except Status α :=
  match reason with
  | some text => .error (.ofFailure (.backend text))
  | none => r.mapError .ofFailure

/-- Answers probes from the storage. -/
def identities (s : Service) : Identities :=
  match s.outage.identities with
  | some text => fun _ => .error (.backend text)
  | none => s.store.probe

/-! ### Authorisation -/

/-- Checks that the bearer of a token may change the register. -/
def authorize (s : Service) (now : Instant) (authorization : Option Bytes) (op : Operation) :
    Except Status Unit :=
  let clock := now.unixSeconds
  match Validator.validate s.key s.identities clock clock (authorization.bind Http.headerText?) op
      [Rule.activeUser] with
  | .ok _ => .ok ()
  | .error e => .error (.ofAuthError e)

/-! ### Reading messages -/

/-- The company that a message must hold. -/
def requireRecord : Option Record → Except Status Record
  | some r => .ok r
  | none => .error (.invalidArgument "you must specify 'company'")

/-- The identifier that a text must be. -/
def readId (text : String) : Except Status Company.Id := (Company.Id.parse text).mapError .ofIdDefect

/-- The identifier of a company that is created: a fresh one for a blank text. -/
def readNewId (fresh : Company.Id) (text : String) : Except Status Company.Id :=
  if Text.allBlank text then .ok fresh else readId text

/-- The legal form that a number stands for, if it stands for any. -/
def readKind (n : Int32) : Except Status (Option Company.Kind) :=
  (kindOfNumber n).mapError .ofUnknownKind

/-- The company that a record describes, as of now. -/
def readCompany (r : Record) (id : Company.Id) (now : Instant) : Except Status Company := do
  match ← readKind r.kind with
  | none => .error (.invalidArgument "you must specify 'company_type'")
  | some kind =>
    let c : Company := {
      id, kind
      name := r.name
      description := r.description
      employees := r.employees
      registered := r.registered
      createdAt := now
      updatedAt := now }
    c.checked.mapError .ofDefect

/-- The conditions of a question. -/
def readQuery (q : Query) : Except Status Company.Filters := do
  let kind ← readKind q.kind
  return {
    name := if q.name = "" then none else some q.name
    kind
    registered := q.registered
    limit := q.limit
    offset := q.offset }

/-! ### The calls -/

/-- The answer to a login that is refused, whether the name or the password is wrong. -/
def refusedLogin : Status := .unauthenticated "invalid username or password"

/-- Exchanges a name and a password for a token. -/
def login (s : Service) (now : Instant) (username password : String) : Except Status Reply := do
  let user ← match fromStorage s.outage.users (.ok (s.store.findUser? username)) with
    | .ok (some u) => .ok u
    | .ok none => .error refusedLogin
    | .error e => .error e
  match Password.verify password user.passwordHash with
  | .ok true => match Token.issue? s.key user now with
    | some jwt => return .token jwt
    | none => .error (.internal "unable to issue token")
  | .ok false => .error refusedLogin
  | .error _ => .error (.internal "unable to verify credentials")

/-- Adds a company: its answer, the new store and the event. -/
def create (s : Service) (m : Moment) (authorization : Option Bytes) (company : Option Record) :
    Except Status (Reply × Store × Event) := do
  s.authorize m.now authorization .create
  let r ← requireRecord company
  let id ← readNewId m.fresh r.id
  let c ← readCompany r id m.now
  let store ← fromStorage s.outage.companies (s.store.create c)
  return (.created c.id.text, store, .ofCompany .created c)

/-- Changes a company. -/
def update (s : Service) (m : Moment) (authorization : Option Bytes) (company : Option Record) :
    Except Status (Reply × Store × Event) := do
  s.authorize m.now authorization .update
  let r ← requireRecord company
  let id ← readId r.id
  let c ← readCompany r id m.now
  let store ← fromStorage s.outage.companies (s.store.update c m.stored)
  return (.updated, store, .ofCompany .updated c)

/-- Removes a company. -/
def delete (s : Service) (m : Moment) (authorization : Option Bytes) (text : String) :
    Except Status (Reply × Store × Event) := do
  s.authorize m.now authorization .delete
  let id ← readId text
  let store ← fromStorage s.outage.companies (s.store.delete id)
  return (.deleted, store, .ofDeletion id)

/-- Shows a company. -/
def get (s : Service) (text : String) : Except Status Reply := do
  let id ← readId text
  let c ← fromStorage s.outage.companies (s.store.get id)
  return .found (.ofCompany c)

/-- Lists companies. -/
def list (s : Service) (q : Query) : Except Status Reply := do
  let f ← readQuery q
  let cs ← fromStorage s.outage.companies (.ok (s.store.list f))
  return .listed (cs.map .ofCompany)

/-- The outcome of a call that changes nothing. -/
def unchanged (s : Service) (answer : Except Status Reply) : Outcome := ⟨answer, s.store, none⟩

/-- The outcome of a call that may change the register. -/
def committed (s : Service) : Except Status (Reply × Store × Event) → Outcome
  | .ok (reply, store, event) => ⟨.ok reply, store, some event⟩
  | .error e => s.unchanged (.error e)

/-- Handles a call. -/
def handle (s : Service) (m : Moment) (authorization : Option Bytes) : Call → Outcome
  | .login username password => s.unchanged (s.login m.now username password)
  | .create company => s.committed (s.create m authorization company)
  | .get id => s.unchanged (s.get id)
  | .update company => s.committed (s.update m authorization company)
  | .delete id => s.committed (s.delete m authorization id)
  | .list q => s.unchanged (s.list q)

end Service

end CompanyRegistry.Rpc
