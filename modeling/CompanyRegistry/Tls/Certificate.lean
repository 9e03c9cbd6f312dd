import CompanyRegistry.Tls.Key

/-!
# Certificates

Of a certificate only the key it is for matters here, but it must be readable as a whole: version 3, one
signature algorithm named inside and outside, and no extension that is critical and unknown or there
twice.
-/

namespace CompanyRegistry.Tls

/-- Why octets are no certificate. -/
inductive CertificateDefect where
  | encoding
  | version
  | algorithms
  | repeated
  | critical
  deriving DecidableEq

/-- The defect as it is reported. -/
def CertificateDefect.message : CertificateDefect → String
  | .encoding => "BadEncoding"
  | .version => "Other(OtherError(UnsupportedCertVersion))"
  | .algorithms => "Other(OtherError(SignatureAlgorithmMismatch))"
  | .repeated => "Other(OtherError(ExtensionValueInvalid))"
  | .critical => "Other(OtherError(UnsupportedCriticalExtension))"

namespace Certificate

/-- Reading that takes a failure for a bad encoding. -/
def orEncoding (a : Option α) : Except CertificateDefect α :=
  match a with
  | some a => .ok a
  | none => .error .encoding

/-- An extension: its name, whether it must be understood, and its octets. -/
structure Extension where
  name : Bytes
  critical : Bool
  octets : Bytes
  deriving DecidableEq

/-- A truth value in its one form. -/
def flag? : Bytes → Option Bool
  | [0x00] => some false
  | [0xFF] => some true
  | _ => none

/-- Reads an extension. -/
def extension? (b : Bytes) : Option Extension := do
  let (name, b) ← Der.field? Der.identifier b
  let (critical, b) ← Der.optional? Der.boolean b
  let critical ← (critical.map flag?).getD (some false)
  return ⟨name, critical, ← Der.whole? Der.octetString b⟩

/-- The number of an extension that is understood, behind the octets that all of them share. -/
def knownNumber? (name : Bytes) : Option UInt8 :=
  match name with
  | [0x55, 0x1D, n] => if n ∈ [15, 17, 19, 30, 31, 37] then some n else none
  | _ => none

/-- Reads extensions; `seen` are the numbers of those before. Every value but that of the first known one,
the use of the key, is a sequence. -/
def extensions (seen : List UInt8) : Nat → Bytes → Except CertificateDefect Unit
  | 0, b => if b.isEmpty then .ok () else .error .encoding
  | count + 1, b =>
    if b.isEmpty then .ok ()
    else do
      let (value, r) ← orEncoding (Der.field? Der.sequence b)
      let e ← orEncoding (extension? value)
      match knownNumber? e.name with
      | none => if e.critical then .error .critical else extensions seen count r
      | some n =>
        if n ∈ seen then .error .repeated
        else if n ≠ 15 ∧ (Der.whole? Der.sequence e.octets).isNone then .error .encoding
        else extensions (n :: seen) count r

/-- Reads what the signature covers, up to the key's description, which is the result. -/
def signedPart (algorithm b : Bytes) : Except CertificateDefect Bytes := do
  let (version, b) ← orEncoding (Der.field? (Der.context 0) b)
  let version ← orEncoding (Der.whole? Der.integer version >>= Der.natural?)
  if 256 ≤ version then .error .encoding
  if version ≠ 2 then .error .version
  let (_, b) ← orEncoding (Der.field? Der.integer b)
  let (inside, b) ← orEncoding (Der.field? Der.sequence b)
  if inside ≠ algorithm then .error .algorithms
  let (_, b) ← orEncoding (Der.field? Der.sequence b)
  let (_, b) ← orEncoding (Der.field? Der.sequence b)
  let (_, b) ← orEncoding (Der.field? Der.sequence b)
  let (info, b) ← orEncoding (Der.field? Der.sequence b)
  if b.isEmpty then return info
  let tagged ← orEncoding (Der.whole? (Der.context 3) b)
  let list ← orEncoding (Der.whole? Der.sequence tagged)
  extensions [] list.length list
  return info

/-- The description of the key that a certificate is for. -/
def keyInfo (b : Bytes) : Except CertificateDefect Bytes := do
  let b ← orEncoding (Der.whole? Der.sequence b)
  let (signed, b) ← orEncoding (Der.field? Der.sequence b)
  let (algorithm, b) ← orEncoding (Der.field? Der.sequence b)
  let _ ← orEncoding (Der.whole? Der.bitString b >>= Der.wholeBits?)
  signedPart algorithm signed

end Certificate

/-! ### Identities -/

/-- Why a server cannot show a certificate. -/
inductive IdentityDefect where
  | key
  | certificate (d : CertificateDefect)
  | mismatch
  deriving DecidableEq

/-- The defect as it is reported. -/
def IdentityDefect.message : IdentityDefect → String
  | .key => "unexpected error: failed to parse private key as RSA, ECDSA, or EdDSA"
  | .certificate d => "invalid peer certificate: " ++ d.message
  | .mismatch => "keys may not be consistent: KeyMismatch"

/-- Whether a private key is good and the certificate is for it. -/
def checkIdentity (certificate : Bytes) (key : PrivateKey) : Except IdentityDefect Unit :=
  match key.publicHalf? with
  | none => .error .key
  | some half =>
    match Certificate.keyInfo certificate with
    | .error d => .error (.certificate d)
    | .ok info => if info = half.info then .ok () else .error .mismatch

end CompanyRegistry.Tls
