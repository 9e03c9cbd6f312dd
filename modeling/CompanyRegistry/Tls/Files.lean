import CompanyRegistry.Config.File
import CompanyRegistry.Tls.Certificate
import CompanyRegistry.Tls.Pem

/-!
# Certificate and key files

A server that encrypts has two armoured files: certificates, its own first, and a private key. Both are
read before they are compared, the certificates first, so that a defect is reported against the file it
is in. The text of a file is `none` where there is no such file.
-/

namespace CompanyRegistry.Tls

/-- Why files give no identity. -/
inductive FileDefect where
  | unread (path cause : String)
  | noCertificate (path : String)
  | noPrivateKey (path : String)
  | refused (d : IdentityDefect)
  deriving DecidableEq

namespace FileDefect

/-- The defect as it is reported. -/
def message : FileDefect → String
  | .unread path cause => "read " ++ path ++ ": " ++ cause
  | .noCertificate path => path ++ " contains no certificate"
  | .noPrivateKey path => path ++ " contains no private key"
  | .refused d => "tls config: " ++ d.message

/-- The defect and then its causes. -/
def chain (d : FileDefect) : List String :=
  d.message :: match d with
    | .unread _ cause => [cause]
    | .refused d => [d.message]
    | _ => []

end FileDefect

/-- A certificate and those that vouch for it. -/
structure Chain where
  own : Bytes
  others : List Bytes
  deriving DecidableEq

/-- All certificates, in order. -/
def Chain.all (c : Chain) : List Bytes := c.own :: c.others

/-- The certificates among the sections of a text without defects. -/
def certificates (path : String) (text : Option Bytes) : Except FileDefect Chain :=
  match text with
  | none => .error (.unread path Config.noSuchFile)
  | some b =>
    match Pem.read b with
    | (_, some d) => .error (.unread path d.message)
    | (found, none) =>
      match found.filter (·.label = .certificate) with
      | [] => .error (.noCertificate path)
      | own :: others => .ok ⟨own.octets, others.map (·.octets)⟩

/-- The container that a section of private keys holds. -/
def Pem.Label.format? : Pem.Label → Option Format
  | .privateKey => some .pkcs8
  | .rsaKey => some .pkcs1
  | .curveKey => some .sec1
  | _ => none

/-- The private key of a section. -/
def Pem.Section.key? (s : Pem.Section) : Option PrivateKey :=
  s.label.format?.map fun format => ⟨format, s.octets⟩

/-- The first private key of a text; defects behind it do not matter. -/
def privateKey (path : String) (text : Option Bytes) : Except FileDefect PrivateKey :=
  match text with
  | none => .error (.unread path Config.noSuchFile)
  | some b =>
    let (found, defect) := Pem.read b
    match found.findSome? Pem.Section.key?, defect with
    | some key, _ => .ok key
    | none, some d => .error (.unread path d.message)
    | none, none => .error (.noPrivateKey path)

/-- The identity that two files give, if it is one. -/
def identity (files : String → Option Bytes) (certificate key : String) :
    Except FileDefect (Chain × PrivateKey) := do
  let chain ← certificates certificate (files certificate)
  let key ← privateKey key (files key)
  match checkIdentity chain.own key with
  | .error d => .error (.refused d)
  | .ok _ => .ok (chain, key)

end CompanyRegistry.Tls
