import CompanyRegistry.Text.Quoted

/-!
# Credentials for the broker

How a publisher signs in to the broker. Without a name and a password it does not, and what mechanism
and algorithm are configured is not looked at.
-/

namespace CompanyRegistry

/-- The digest of the challenge mechanism. -/
inductive ScramAlgorithm where
  | sha256
  | sha512
  deriving DecidableEq, Repr

/-- How a client shows who it is. -/
inductive Mechanism where
  | plain
  | scram (algorithm : ScramAlgorithm)
  deriving DecidableEq, Repr

/-- A mechanism with a name and a password. -/
structure Credentials where
  mechanism : Mechanism
  username : String
  password : String
  deriving DecidableEq

/-- Why settings name no mechanism. -/
inductive MechanismError where
  | unknownMechanism (name : String)
  | unknownAlgorithm (name : String)
  deriving DecidableEq, Repr

/-- The text of a mechanism's error. -/
def MechanismError.message : MechanismError → String
  | .unknownMechanism s => "unknown sasl mechanism '" ++ s ++ "'"
  | .unknownAlgorithm s => "unknown sasl algorithm '" ++ s ++ "'"

namespace ScramAlgorithm

/-- The label of an algorithm. -/
def label : ScramAlgorithm → String
  | .sha256 => "Sha256"
  | .sha512 => "Sha512"

/-- The algorithm of a configured name. -/
def parse (name : String) : Except MechanismError ScramAlgorithm :=
  if name = "SHA256" then .ok .sha256
  else if name = "SHA512" then .ok .sha512
  else .error (.unknownAlgorithm name)

end ScramAlgorithm

namespace Credentials

/-- The credentials that settings give, if they give a name or a password. -/
def ofSettings (mechanism algorithm username password : String) :
    Except MechanismError (Option Credentials) :=
  if username = "" ∧ password = "" then .ok none
  else if mechanism = "PLAIN" then .ok (some ⟨.plain, username, password⟩)
  else if mechanism = "SCRAM" then
    (ScramAlgorithm.parse algorithm).map fun a => some ⟨.scram a, username, password⟩
  else .error (.unknownMechanism mechanism)

/-- The credentials as they are shown; the password is not. -/
def shown (c : Credentials) : String :=
  match c.mechanism with
  | .plain => "Plain \x7b username: " ++ Text.shown c.username ++ ", .. \x7d"
  | .scram a =>
    "Scram \x7b algorithm: " ++ a.label ++ ", username: " ++ Text.shown c.username ++ ", .. \x7d"

end Credentials

end CompanyRegistry
