import CompanyRegistry.Text.Bytes

/-!
# Tagged values

Certificates and keys are trees of values, each a tag octet, a length and that many octets. A length
has one form: itself below 128, else the number of its octets, one or two here, and then as few octets as
it takes. So `item?` and `wrap` are inverse on values below 65536 octets.
-/

namespace CompanyRegistry.Tls.Der

/-! ### Tags -/

def boolean : UInt8 := 0x01

def integer : UInt8 := 0x02

def bitString : UInt8 := 0x03

def octetString : UInt8 := 0x04

def identifier : UInt8 := 0x06

def sequence : UInt8 := 0x30

/-- The tag of a field named by its number, holding other values. -/
def context (n : UInt8) : UInt8 := 0xA0 + n

/-! ### Reading -/

/-- A value with its tag. -/
structure Item where
  tag : UInt8
  value : Bytes
  deriving DecidableEq

/-- The first octets of a list, and the rest, if there are that many. -/
def split? (n : Nat) (b : Bytes) : Option (Bytes × Bytes) :=
  if n ≤ b.length then some (b.take n, b.drop n) else none

/-- A length, and what follows it. -/
def length? : Bytes → Option (Nat × Bytes)
  | [] => none
  | first :: r =>
    if first < 0x80 then some (first.toNat, r)
    else match first, r with
      | 0x81, a :: r => if a < 0x80 then none else some (a.toNat, r)
      | 0x82, a :: b :: r => if a = 0 then none else some (Bytes.bigEndian [a, b], r)
      | _, _ => none

/-- The first value of a list of octets, and what follows it. Tags of more than one octet are not read. -/
def item? : Bytes → Option (Item × Bytes)
  | [] => none
  | tag :: r =>
    if tag &&& 0x1F = 0x1F then none
    else do
      let (length, r) ← length? r
      let (value, r) ← split? length r
      return (⟨tag, value⟩, r)

/-- The first value, if it has a given tag, and what follows it. -/
def field? (tag : UInt8) (b : Bytes) : Option (Bytes × Bytes) := do
  let (i, r) ← item? b
  guard (i.tag = tag)
  return (i.value, r)

/-- The only value, if it has a given tag. -/
def whole? (tag : UInt8) (b : Bytes) : Option Bytes := do
  let (value, r) ← field? tag b
  guard r.isEmpty
  return value

/-- The value of a field that may be left out: octets that start with another tag lack it. -/
def optional? (tag : UInt8) (b : Bytes) : Option (Option Bytes × Bytes) :=
  if b.head? = some tag then do
    let (value, r) ← field? tag b
    return (some value, r)
  else some (none, b)

/-- The number whose octets these are, if they are as few as can be and the sign bit is clear. -/
def natural? : Bytes → Option Nat
  | [] => none
  | [b] => if b < 0x80 then some b.toNat else none
  | 0 :: b :: r => if b < 0x80 then none else some (Bytes.bigEndian (b :: r))
  | b :: r => if b < 0x80 then some (Bytes.bigEndian (b :: r)) else none

/-- A natural number, and what follows it. -/
def naturalField? (b : Bytes) : Option (Nat × Bytes) := do
  let (value, r) ← field? integer b
  return (← natural? value, r)

/-- Natural numbers until the octets end. -/
def naturals? : Nat → Bytes → Option (List Nat)
  | 0, b => if b.isEmpty then some [] else none
  | count + 1, b => do
    let (n, r) ← naturalField? b
    return n :: (← naturals? count r)

/-- The octets of a bit string of whole octets. -/
def wholeBits? : Bytes → Option Bytes
  | 0 :: r => some r
  | _ => none

/-! ### Writing -/

/-- A length in its one form. -/
def lengthOctets (n : Nat) : Bytes :=
  if n < 0x80 then [UInt8.ofNat n]
  else if n < 0x100 then [0x81, UInt8.ofNat n]
  else 0x82 :: Bytes.ofNatBE 2 n

/-- A value with its tag and length. -/
def wrap (tag : UInt8) (value : Bytes) : Bytes := tag :: lengthOctets value.length ++ value

/-- A natural number as a value. -/
def naturalValue (n : Nat) : Bytes := wrap integer (Bytes.ofNatBE (n.log2 / 8 + 1) n |> pad)
where
  /-- A zero octet before octets that would read as a negative number. -/
  pad : Bytes → Bytes
    | [] => []
    | b :: r => if b < 0x80 then b :: r else 0 :: b :: r

/-- Octets as a bit string. -/
def bits (b : Bytes) : Bytes := wrap bitString (0 :: b)

end CompanyRegistry.Tls.Der
