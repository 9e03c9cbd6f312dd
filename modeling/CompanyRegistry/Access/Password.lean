import CompanyRegistry.Digest.Sha512
import CompanyRegistry.Text.Base64
import CompanyRegistry.Text.Decimal

/-!
# Stored passwords

A password is stored as `PBKDF2$sha512$ITERATIONS$SALT$HASH`, salt and hash in padded base64. Fields
are judged from left to right, and the first one that is wrong names the defect. A stored hash that
is shorter or longer than the derived one never fits.
-/

namespace CompanyRegistry

namespace Password

/-- Why a password cannot be stored or a stored one not be read. -/
inductive Defect where
  | tooShort
  | noIterations
  | scheme
  | digest
  | iterations
  | salt
  | hash
  | trailing
  deriving DecidableEq, Repr

/-- The text of a malformed field. -/
def malformed (field : String) : String := "malformed password hash: " ++ field

/-- The text of a defect. -/
def Defect.message : Defect → String
  | .tooShort => "password must be at least 6 characters"
  | .noIterations => "iterations must be positive"
  | .scheme => malformed "unknown scheme"
  | .digest => malformed "unknown digest"
  | .iterations => malformed "iterations"
  | .salt => malformed "salt"
  | .hash => malformed "hash"
  | .trailing => malformed "trailing data"

/-- The fewest characters of a password. -/
def minLength : Nat := 6

/-- The iterations of passwords stored by default. -/
def usualIterations : Nat := 100000

/-- The octets derived from a password. -/
def derive (password : String) (salt : Bytes) (iterations : Nat) : Bytes :=
  Sha512.derive (Bytes.utf8 password) salt iterations

/-- Padded base64. -/
def base64 (b : Bytes) : List Char := Base64.encode Base64.standard .always b

/-- Octets of padded base64. -/
def ofBase64? (cs : List Char) : Option Bytes := Base64.decode? Base64.standard .always cs

/-- The stored form of a salt and a hash. -/
def render (iterations : Nat) (salt hash : Bytes) : String :=
  String.ofList ("PBKDF2$sha512$".toList ++ Decimal.digits iterations ++ '$' :: base64 salt ++
    '$' :: base64 hash)

/-- The stored form of a password under a fresh salt. -/
def store (password : String) (iterations : Nat) (salt : Bytes) : Except Defect String :=
  if password.length < minLength then .error .tooShort
  else if iterations = 0 then .error .noIterations
  else .ok (render iterations salt (derive password salt iterations))

/-- The fields between separators; there is always at least one. -/
def splitAt (mark : Char) : List Char → List (List Char)
  | [] => [[]]
  | c :: r =>
    if c = mark then [] :: splitAt mark r
    else match splitAt mark r with
      | [] => [[c]]
      | f :: fs => (c :: f) :: fs

/-- A stored password taken apart. -/
structure Stored where
  iterations : Nat
  salt : Bytes
  hash : Bytes

/-- A positive plain number of 32 bits. -/
def readIterations? (cs : List Char) : Option Nat :=
  (Decimal.plain? Decimal.maxU32 cs).filter (0 < ·)

/-- Takes the fields of a stored password apart. -/
def readFields (fields : List (List Char)) : Except Defect Stored := do
  let field (i : Nat) := fields[i]?
  if field 0 ≠ some "PBKDF2".toList then .error .scheme
  else if field 1 ≠ some "sha512".toList then .error .digest
  else
    match (field 2).bind readIterations? with
    | none => .error .iterations
    | some iterations =>
      match (field 3).bind ofBase64? with
      | none => .error .salt
      | some salt =>
        match (field 4).bind ofBase64? with
        | none => .error .hash
        | some hash =>
          if (field 5).isSome then .error .trailing else .ok ⟨iterations, salt, hash⟩

/-- Whether a password is the stored one. -/
def verify (password stored : String) : Except Defect Bool := do
  let s ← readFields (splitAt '$' stored.toList)
  return derive password s.salt s.iterations == s.hash

end Password

end CompanyRegistry
