import CompanyRegistry.Digest.Sha512
import CompanyRegistry.Tls.Curve
import CompanyRegistry.Tls.Der

/-!
# Keys

A private key comes in one of three containers: a general one that names its algorithm, and one each for
RSA and for curves. A key is accepted when it is well-formed, strong enough and its parts belong
together; what remains of it then is its public half.

* `publicHalf?` tries the algorithms one after another.
* `PublicKey.info` is the form in which certificates state the key they are for.
-/

namespace CompanyRegistry.Tls

/-- The container of a private key. -/
inductive Format where
  | pkcs8
  | pkcs1
  | sec1
  deriving DecidableEq

/-- The container's name. -/
def Format.label : Format → String
  | .pkcs8 => "pkcs8"
  | .pkcs1 => "pkcs1"
  | .sec1 => "sec1"

/-- A private key as read from a file. -/
structure PrivateKey where
  format : Format
  octets : Bytes
  deriving DecidableEq

/-- The public half of a key. -/
inductive PublicKey where
  | rsa (modulus exponent : Nat)
  | curve (name : Bytes) (point : Bytes)
  | edwards (code : Bytes)
  deriving DecidableEq

/-! ### Names of algorithms -/

/-- What names RSA, with its empty parameter. -/
def rsaName : Bytes :=
  [0x06, 0x09, 0x2A, 0x86, 0x48, 0x86, 0xF7, 0x0D, 0x01, 0x01, 0x01, 0x05, 0x00]

/-- What names keys on curves. -/
def curveKeyName : Bytes := [0x06, 0x07, 0x2A, 0x86, 0x48, 0xCE, 0x3D, 0x02, 0x01]

/-- What names the curve P-256. -/
def p256Name : Bytes := [0x06, 0x08, 0x2A, 0x86, 0x48, 0xCE, 0x3D, 0x03, 0x01, 0x07]

/-- What names the curve P-384. -/
def p384Name : Bytes := [0x06, 0x05, 0x2B, 0x81, 0x04, 0x00, 0x22]

/-- What names keys on the Edwards curve. -/
def edwardsName : Bytes := [0x06, 0x03, 0x2B, 0x65, 0x70]

/-! ### Certificates' form -/

/-- What a certificate says about its key: the algorithm, then the key's octets. -/
def PublicKey.info : PublicKey → Bytes
  | .rsa n e =>
    Der.wrap Der.sequence rsaName ++
      Der.bits (Der.wrap Der.sequence (Der.naturalValue n ++ Der.naturalValue e))
  | .curve name point => Der.wrap Der.sequence (curveKeyName ++ name) ++ Der.bits point
  | .edwards code => Der.wrap Der.sequence edwardsName ++ Der.bits code

/-! ### The general container -/

/-- The private octets of a general container for a given algorithm, and the public ones that a container
of version 1 carries. -/
def unwrap? (name : Bytes) (b : Bytes) : Option (Bytes × Option Bytes) := do
  let b ← Der.whole? Der.sequence b
  let (version, b) ← Der.naturalField? b
  let (algorithm, b) ← Der.field? Der.sequence b
  guard (algorithm = name)
  let (octets, b) ← Der.field? Der.octetString b
  let (_, b) ← Der.optional? (Der.context 0) b
  match version with
  | 0 =>
    guard b.isEmpty
    return (octets, none)
  | 1 =>
    match ← Der.optional? (Der.context 1) b with
    | (some inner, r) =>
      guard r.isEmpty
      return (octets, some (← Der.wholeBits? (← Der.whole? Der.bitString inner)))
    | (none, _) => return (octets, some (← Der.wholeBits? (← Der.whole? 0x81 b)))
  | _ => none

/-! ### RSA -/

/-- The number of binary digits. -/
def bitLength (n : Nat) : Nat := if n = 0 then 0 else n.log2 + 1

/-- The numbers of an RSA key: modulus, exponents, primes, exponents modulo the primes less one, and the
inverse of the second prime modulo the first. -/
structure RsaKey where
  n : Nat
  e : Nat
  d : Nat
  p : Nat
  q : Nat
  dP : Nat
  dQ : Nat
  qInv : Nat
  deriving DecidableEq

/-- Whether the modulus has between 2048 (whole octets counted) and 4096 binary digits. -/
def RsaKey.hasGoodModulus (k : RsaKey) : Bool :=
  let digits := bitLength k.n
  k.n % 2 == 1 && decide (2048 ≤ (digits + 7) / 8 * 8) && decide (digits ≤ 4096)

/-- Whether the public exponent is odd, at least 65537 and at most 33 binary digits long. -/
def RsaKey.hasGoodExponent (k : RsaKey) : Bool :=
  k.e % 2 == 1 && decide (65537 ≤ k.e) && decide (bitLength k.e ≤ 33)

/-- Whether the primes are two halves of the modulus. -/
def RsaKey.hasGoodPrimes (k : RsaKey) : Bool :=
  let half := (bitLength k.n + 1) / 2
  k.p % 2 == 1 && k.q % 2 == 1 && bitLength k.p == half && bitLength k.q == half && k.n == k.p * k.q

/-- Whether the private exponents lie in their ranges. -/
def RsaKey.hasGoodPrivateExponents (k : RsaKey) : Bool :=
  let half := (bitLength k.n + 1) / 2
  decide (Nat.pow 2 half < k.d) && decide (k.d < k.n) && k.d % 2 == 1 &&
    decide (k.dP < k.p) && k.dP % 2 == 1 && decide (k.dQ < k.q) && k.dQ % 2 == 1

/-- Whether the last number inverts the second prime. -/
def RsaKey.hasGoodInverse (k : RsaKey) : Bool := decide (k.qInv < k.p) && k.qInv * k.q % k.p == 1

/-- Whether the numbers make a key. -/
def RsaKey.isGood (k : RsaKey) : Bool :=
  k.hasGoodModulus && k.hasGoodExponent && k.hasGoodPrimes && k.hasGoodPrivateExponents && k.hasGoodInverse

/-- The public half of an RSA key in its own container. -/
def rsaHalf? (b : Bytes) : Option PublicKey := do
  match ← Der.naturals? 9 (← Der.whole? Der.sequence b) with
  | [0, n, e, d, p, q, dP, dQ, qInv] =>
    let k : RsaKey := ⟨n, e, d, p, q, dP, dQ, qInv⟩
    guard k.isGood
    return .rsa k.n k.e
  | _ => none

/-! ### Curves -/

/-- A point's octets: a mark, then both coordinates. -/
def Curve.pointOctets (c : Curve) (p : Nat × Nat) : Bytes :=
  0x04 :: Bytes.ofNatBE c.width p.1 ++ Bytes.ofNatBE c.width p.2

/-- The public half of a curve key in its own container, which may name the curve and must state the
point. -/
def curveHalf? (c : Curve) (name b : Bytes) : Option PublicKey := do
  let b ← Der.whole? Der.sequence b
  let (version, b) ← Der.naturalField? b
  guard (version = 1)
  let (secret, b) ← Der.field? Der.octetString b
  let (stated, b) ← Der.optional? (Der.context 0) b
  guard (stated.all (· = name))
  let point ← Der.wholeBits? (← Der.whole? Der.bitString (← Der.whole? (Der.context 1) b))
  guard (secret.length = c.width)
  let k := Bytes.bigEndian secret
  guard (k ≠ 0 ∧ k < c.order)
  guard (point = c.pointOctets (← c.publicPoint k))
  return .curve name point

/-! ### The Edwards curve -/

/-- The public octets that belong to a seed: the first half of its digest, three low bits and the highest
one cleared and the next one set, times the generator. -/
def edwardsOctets (seed : Bytes) : Bytes :=
  let k := Bytes.bigEndian ((Sha512.digest seed).take 32).reverse
  let k := k % Nat.pow 2 254 / 8 * 8 + Nat.pow 2 254
  (Bytes.ofNatBE 32 (Edwards.code (Edwards.multiple k Edwards.base))).reverse

/-- The public half of a seed in a container, which a stated one must equal. -/
def edwardsHalf? (octets : Bytes) (stated : Option Bytes) : Option PublicKey := do
  let seed ← Der.whole? Der.octetString octets
  guard (seed.length = 32)
  let code := edwardsOctets seed
  guard (stated.all (· = code))
  return .edwards code

/-! ### All keys -/

/-- The private octets of a general container of version 0. -/
def unwrapPlain? (name b : Bytes) : Option Bytes := do
  match ← unwrap? name b with
  | (octets, none) => return octets
  | _ => none

/-- The public half of a good private key. -/
def PrivateKey.publicHalf? (k : PrivateKey) : Option PublicKey :=
  match k.format with
  | .pkcs1 => rsaHalf? k.octets
  | .sec1 => curveHalf? .p256 p256Name k.octets <|> curveHalf? .p384 p384Name k.octets
  | .pkcs8 =>
    (unwrapPlain? rsaName k.octets >>= rsaHalf?) <|>
    (unwrapPlain? (curveKeyName ++ p256Name) k.octets >>= curveHalf? .p256 p256Name) <|>
    (unwrapPlain? (curveKeyName ++ p384Name) k.octets >>= curveHalf? .p384 p384Name) <|>
    do
      let (octets, stated) ← unwrap? edwardsName k.octets
      edwardsHalf? octets stated

end CompanyRegistry.Tls
