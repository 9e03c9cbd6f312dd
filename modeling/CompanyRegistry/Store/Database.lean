import CompanyRegistry.Access.Validator
import CompanyRegistry.Store.Basic

/-!
# The database

The same operations on a PostgreSQL database, as far as they are not the database's own: the rows that companies
are kept in, the statements that write them, and what becomes of a statement that fails. A row keeps a company's
employees in 32 bits with a sign, so the upper half of their range has no row.

The connections to the database are a parameter (`Pool`), which may answer a statement in any way. A pool that was
closed answers none.

A database is found by an address; one that cannot be taken apart is refused at once.
-/

namespace CompanyRegistry.Database

/-! ### Rows -/

/-- The parameters that write a company. -/
structure Row where
  id : Company.Id
  name : String
  description : String
  employees : Int32
  registered : Bool
  kind : String
  createdAt : Instant
  updatedAt : Instant

/-- The column of the employees, where their number fits. -/
def employees (c : Company) : Except Store.Failure Int32 :=
  if c.employees.toNat < Nat.pow 2 31 then .ok (Int32.ofInt c.employees.toNat)
  else .error (.backend "employees_count out of range")

/-- The parameters that write a company. -/
def row (c : Company) : Except Store.Failure Row := do
  return ⟨c.id, c.name, c.description, ← employees c, c.registered, c.kind.label, c.createdAt, c.updatedAt⟩

/-- The number of employees in a row that was read. -/
def readEmployees (n : Int32) : Except Store.Failure UInt32 :=
  if n.toInt < 0 then .error (.backend "negative employees_count") else .ok (UInt32.ofNat n.toInt.toNat)

/-- The legal form in a row that was read. -/
def readKind (label : String) : Except Store.Failure Company.Kind :=
  (Company.kindOf label).mapError fun d => .backend ("validation failed: " ++ d.message)

/-- The company in a row that was read. -/
def Row.company (r : Row) : Except Store.Failure Company := do
  return ⟨r.id, r.name, r.description, ← readEmployees r.employees, r.registered, ← readKind r.kind,
    r.createdAt, r.updatedAt⟩

/-! ### Statements -/

/-- The value of a parameter, by the type of its column. -/
inductive Parameter where
  | uuid (id : Company.Id)
  | text (s : String)
  | integer (n : Int32)
  | boolean (b : Bool)
  | timestamp (t : Instant)
  deriving DecidableEq

/-- A statement with the values of its parameters, that of `$1` first. -/
structure Statement where
  sql : String
  parameters : List Parameter
  deriving DecidableEq

/-- The parameters that creations and updates have in common. -/
def Row.parameters (r : Row) : List Parameter :=
  [.uuid r.id, .text r.name, .text r.description, .integer r.employees, .boolean r.registered, .text r.kind]

/-- The text of the statement that adds a row. -/
def insertion : String := "
            INSERT INTO company (
                id,
                name,
                description,
                employees_count,
                registered,
                kind,
                created_at,
                updated_at
            ) VALUES ($1, $2, $3, $4, $5, $6, $7, $8)
            "

/-- The text of the statement that replaces a row: all of it but its creation, dated by the database. -/
def replacement : String := "
            UPDATE company
            SET
                updated_at = now(),
                name = $2,
                description = $3,
                employees_count = $4,
                registered = $5,
                kind = $6
            WHERE
                id = $1
            "

/-- Why a statement fails: it finds no row, the database refuses it, or it has no answer. A refusal has a code, and
the name of a constraint if it is of one. -/
inductive QueryError where
  | rowNotFound
  | refused (code constraint : Option String) (text : String)
  | unanswered (text : String)
  deriving DecidableEq

/-- The connections to a database: they carry out statements on its state, and tell how many rows a statement has
touched or why it has failed. -/
structure Pool (σ : Type) where
  execute : Statement → σ → Except QueryError Nat × σ

/-- The failure of an operation whose query could not be sent. -/
def failed (operation text : String) : Store.Failure :=
  .backend ("sqlx error in " ++ operation ++ ": " ++ text)

/-- The code of a value that is there already. -/
def uniqueViolation : String := "23505"

/-- The failure of an operation whose statement fails. -/
def failure (operation : String) : QueryError → Store.Failure
  | .rowNotFound => .notFound
  | .refused code constraint text =>
    if code = some uniqueViolation then .alreadyExists (constraint.getD "unique constraint")
    else .backend ("database error in " ++ operation ++ ": " ++ text)
  | .unanswered text => failed operation text

/-! ### Writing companies -/

/-- The operations that write a company. -/
inductive Write where
  | create
  | update
  deriving DecidableEq

namespace Write

/-- The name of an operation, as its failures tell it. -/
def operation : Write → String
  | .create => "create_company"
  | .update => "update_company"

/-- The operation of this name. -/
def ofOperation (name : String) : Write := if name = update.operation then .update else .create

/-- The statement that writes a row. -/
def statement (w : Write) (r : Row) : Statement :=
  match w with
  | .create => ⟨insertion, r.parameters ++ [.timestamp r.createdAt, .timestamp r.updatedAt]⟩
  | .update => ⟨replacement, r.parameters⟩

/-- What an operation comes to by the number of rows that were touched: only an update needs one. -/
def outcome (w : Write) (touched : Nat) : Except Store.Failure Unit :=
  match w with
  | .create => .ok ()
  | .update => if touched = 0 then .error .notFound else .ok ()

end Write

/-- Writes a company. Its row is made first, and only then is a statement given to the pool. -/
def write {σ : Type} (pool : Pool σ) (w : Write) (c : Company) (db : σ) : Except Store.Failure Unit × σ :=
  match row c with
  | .error e => (.error e, db)
  | .ok r =>
    let (result, db) := pool.execute (w.statement r) db
    (result.mapError (failure w.operation) >>= w.outcome, db)

/-! ### A closed pool -/

/-- What a closed pool answers. -/
def closedText : String := "attempted to acquire a connection on a closed pool"

/-- A pool that was closed. -/
def closedPool : Pool Unit := ⟨fun _ db => (.error (.unanswered closedText), db)⟩

/-- An operation on a closed pool. -/
def closed (operation : String) : Store.Failure := failed operation closedText

/-- Writing a company on a closed pool. -/
def closedWrite (operation : String) (c : Company) : Except Store.Failure Unit :=
  (write closedPool (Write.ofOperation operation) c ()).1

/-- A probe on a closed pool. -/
def closedProbe (_ : Probe) : Except ProbeError Bool :=
  .error (.backend ("validator select error: " ++ closedText))

/-- The failure to prepare the tables on a closed pool. -/
def closedMigration : Store.Failure :=
  .backend ("migrate: while executing migrations: " ++ closedText)

/-! ### Addresses -/

/-- Why an address cannot be taken apart. -/
inductive AddressError where
  | noScheme
  | port
  | ipv6
  deriving DecidableEq, Repr

/-- The text of an address's error. -/
def AddressError.message : AddressError → String
  | .noScheme => "relative URL without a base"
  | .port => "invalid port number"
  | .ipv6 => "invalid IPv6 address"

/-- A letter of the ASCII alphabet. -/
def isLetter (c : Char) : Bool := c.isAlpha

/-- A character of a scheme after its first. -/
def isSchemeChar (c : Char) : Bool := c.isAlphanum || c == '+' || c == '-' || c == '.'

/-- What follows the scheme and its colon. -/
def afterScheme? (cs : List Char) : Option (List Char) :=
  match cs with
  | [] => none
  | c :: _ =>
    if isLetter c then
      match cs.dropWhile isSchemeChar with
      | ':' :: r => some r
      | _ => none
    else none

/-- The host and port of what follows the scheme. -/
def authority (cs : List Char) : List Char :=
  match cs with
  | '/' :: '/' :: r =>
    let a := r.takeWhile fun c => c ≠ '/' ∧ c ≠ '?' ∧ c ≠ '#'
    let host := (a.reverse.takeWhile (· ≠ '@')).reverse
    host
  | _ => []

/-- Checks a port: digits below 2^16, or nothing. -/
def checkPort (cs : List Char) : Except AddressError Unit :=
  if cs = [] ∨ (Decimal.plain? 65535 cs).isSome ∧ cs.head? ≠ some '+' then .ok () else .error .port

/-- Checks an address as far as it is taken apart before a connection is tried. -/
def checkAddress (text : String) : Except AddressError Unit :=
  match afterScheme? (Text.trim text.toList) with
  | none => .error .noScheme
  | some r =>
    match authority r with
    | '[' :: inner =>
      match inner.dropWhile (· ≠ ']') with
      | ']' :: ':' :: port => checkPort port
      | [']'] => .ok ()
      | _ => .error .ipv6
    | host =>
      match host.dropWhile (· ≠ ':') with
      | ':' :: port => checkPort port
      | _ => .ok ()

/-- The failure to connect to a malformed address. -/
def connectFailure (e : AddressError) : Store.Failure :=
  failed "connect" ("error with configuration: " ++ e.message)

end CompanyRegistry.Database
