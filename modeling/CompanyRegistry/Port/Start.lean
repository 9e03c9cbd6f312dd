import CompanyRegistry.Port.Address
import CompanyRegistry.Tls.Files

/-!
# Starting to serve

A server looks at three settings before it answers anything, in this order: its certificate and key, if
both are named, the address it listens on, and the name under which its own JSON side reaches it when it
encrypts. The first that fails is reported with what it was for and what caused it.
-/

namespace CompanyRegistry.Port

/-- Why a server does not start. -/
inductive StartError where
  | tls (d : Tls.FileDefect)
  | bind (address : String) (d : AddressDefect)
  | serverName
  deriving DecidableEq

namespace StartError

/-- The error of an address. -/
def bindMessage (address : String) (d : AddressDefect) : String :=
  "bind " ++ address ++ ": " ++ d.message

/-- What is said of a text that names no host. -/
def noName : String := "invalid dns name"

/-- What failed, then its causes. -/
def chain : StartError → List String
  | .tls d => "load external api tls" :: d.chain
  | .bind address d => [bindMessage address d, d.message]
  | .serverName => ["setup json gateway", "tls server name: " ++ noName, noName]

/-- The chain in one line. -/
def message (e : StartError) : String := ": ".intercalate e.chain

end StartError

/-- Checks that a server can start with these settings and files. -/
def checkStart (files : String → Option Bytes) (s : Config.Server) : Except StartError Unit := do
  if s.tlsEnabled then
    if let .error d := Tls.identity files s.tlsCert s.tlsKey then .error (.tls d)
  if let .error d := checkAddress s.bind then .error (.bind s.bind d)
  if s.tlsEnabled && !isServerName s.tlsServerName then .error .serverName

end CompanyRegistry.Port
