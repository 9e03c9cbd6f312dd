import CompanyRegistry.Access.User
import CompanyRegistry.Company.Filters

/-!
# The store

Companies and users, kept in memory. No two companies share an id or a name, no two users a name, and
users are numbered from one in the order of their creation. An operation either gives the new store or
an error, in which case the store is as it was.
-/

namespace CompanyRegistry

/-- Companies and users. -/
structure Store where
  companies : List Company := []
  users : List User := []

namespace Store

/-- Why an operation fails. -/
inductive Failure where
  | notFound
  | alreadyExists (what : String)
  | backend (text : String)
  deriving DecidableEq, Repr

/-- The text of a failure. -/
def Failure.message : Failure → String
  | .notFound => "object does not exist"
  | .alreadyExists s => "object already exists: " ++ s
  | .backend s => "storage backend error: " ++ s

/-- A store with nothing in it. -/
def empty : Store := {}

/-! ### Companies -/

/-- The company with this id. -/
def find? (s : Store) (id : Company.Id) : Option Company := s.companies.find? (·.id = id)

/-- Adds a company whose id and name are both new; a known id is noticed first. -/
def create (s : Store) (c : Company) : Except Failure Store :=
  if (s.find? c.id).isSome then .error (.alreadyExists c.id.text)
  else if s.companies.any (·.name = c.name) then .error (.alreadyExists c.name)
  else .ok { s with companies := s.companies ++ [c] }

/-- The company with this id, or a failure. -/
def get (s : Store) (id : Company.Id) : Except Failure Company :=
  match s.find? id with
  | some c => .ok c
  | none => .error .notFound

/-- A company as it is kept after an update: its creation is not changed, its update is now. -/
def revised (old c : Company) (now : Instant) : Company :=
  { c with createdAt := old.createdAt, updatedAt := now }

/-- Replaces a company. Another company with the new name is noticed before the missing id. -/
def update (s : Store) (c : Company) (now : Instant) : Except Failure Store :=
  if s.companies.any fun other => other.id ≠ c.id ∧ other.name = c.name then
    .error (.alreadyExists c.name)
  else match s.find? c.id with
    | none => .error .notFound
    | some _ =>
      .ok { s with companies := s.companies.map fun old => if old.id = c.id then revised old c now else old }

/-- Removes a company. -/
def delete (s : Store) (id : Company.Id) : Except Failure Store :=
  match s.find? id with
  | none => .error .notFound
  | some _ => .ok { s with companies := s.companies.filter (·.id ≠ id) }

/-- The asked page of the companies. -/
def list (s : Store) (f : Company.Filters) : List Company := f.page s.companies

/-! ### Users -/

/-- The user of this name. -/
def findUser? (s : Store) (username : String) : Option User := s.users.find? (·.username = username)

/-- The number of the next user: one more than the greatest. -/
def nextUserId (s : Store) : Int64 := s.users.foldl (fun n u => if n < u.id then u.id else n) 0 + 1

/-- Adds a user whose name is new. -/
def createUser (s : Store) (username passwordHash : String) (isAdmin : Bool) (sessionHours : Int32)
    (now : Instant) : Except Failure (User × Store) :=
  if (s.findUser? username).isSome then .error (.alreadyExists username)
  else
    let u : User := ⟨s.nextUserId, username, passwordHash, isAdmin, sessionHours, now, now⟩
    .ok (u, { s with users := s.users ++ [u] })

/-- The user of this name, or a failure. -/
def getUser (s : Store) (username : String) : Except Failure User :=
  match s.findUser? username with
  | some u => .ok u
  | none => .error .notFound

end Store

end CompanyRegistry
