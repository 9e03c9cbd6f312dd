import CompanyRegistry.Text.Bytes

/-!
# Fields on the wire

A message on the wire is a sequence of fields, each a key and a payload. The key is a varint that holds
the field's number and the kind of its payload. This module reads and writes such sequences without
knowing what the numbers mean.

* A varint has seven bits to an octet, the low ones first, and at most ten octets; the tenth may only
  hold the one bit that is left of 64.
* A group, closed by a key of its own number, is an obsolete kind of payload: it can be passed over but
  holds nothing here.
-/

namespace CompanyRegistry.Wire

/-! ### Varints -/

/-- The most octets of a varint. -/
def varintOctets : Nat := 10

/-- Reads a varint of at most `budget` octets; the last octet of a full budget holds one bit. -/
def readVarintWithin : Nat → Bytes → Option (Nat × Bytes)
  | 0, _ => none
  | _, [] => none
  | budget + 1, b :: r =>
    if b < 0x80 then
      if budget = 0 ∧ 2 ≤ b then none else some (b.toNat, r)
    else match readVarintWithin budget r with
      | some (high, rest) => some ((b.toNat - 0x80) + 0x80 * high, rest)
      | none => none

/-- Reads a varint. -/
def readVarint? (s : Bytes) : Option (Nat × Bytes) := readVarintWithin varintOctets s

/-- The octets of a varint, the fewest that hold the number. -/
def varint (n : Nat) : Bytes :=
  if n < 0x80 then [UInt8.ofNat n] else UInt8.ofNat (0x80 + n % 0x80) :: varint (n / 0x80)
termination_by n

/-! ### Fields -/

/-- What a field holds. -/
inductive Payload where
  | varint (n : Nat)
  | fixed64 (octets : Bytes)
  | delimited (octets : Bytes)
  | group
  | fixed32 (octets : Bytes)
  deriving DecidableEq, Repr

/-- A field: its number and what it holds. -/
structure Field where
  number : Nat
  payload : Payload
  deriving DecidableEq, Repr

/-- The kinds of payload that a key can announce. -/
inductive Kind where
  | varint
  | fixed64
  | delimited
  | groupStart
  | groupEnd
  | fixed32
  deriving DecidableEq, Repr

/-- The kind of payload with this code. -/
def Kind.ofCode? : Nat → Option Kind
  | 0 => some .varint
  | 1 => some .fixed64
  | 2 => some .delimited
  | 3 => some .groupStart
  | 4 => some .groupEnd
  | 5 => some .fixed32
  | _ => none

/-- Reads a key: 32 bits, and a number that is not zero. -/
def readKey? (s : Bytes) : Option (Nat × Kind × Bytes) := do
  let (key, rest) ← readVarint? s
  let kind ← Kind.ofCode? (key % 8)
  if key < Nat.pow 2 32 ∧ 8 ≤ key then some (key / 8, kind, rest) else none

/-- The first `n` octets, if there are as many, and the rest. -/
def take? (n : Nat) (s : Bytes) : Option (Bytes × Bytes) :=
  let taken := s.take n
  if taken.length = n then some (taken, s.drop n) else none

/-- Reads a payload that is not a group. -/
def readPlain? (kind : Kind) (s : Bytes) : Option (Payload × Bytes) :=
  match kind with
  | .varint => (readVarint? s).map fun (n, rest) => (.varint n, rest)
  | .fixed64 => (take? 8 s).map fun (b, rest) => (.fixed64 b, rest)
  | .fixed32 => (take? 4 s).map fun (b, rest) => (.fixed32 b, rest)
  | .delimited => do
    let (n, rest) ← readVarint? s
    let (b, rest) ← take? n rest
    return (.delimited b, rest)
  | .groupStart | .groupEnd => none

/-- Passes over groups: `inside` are the numbers of those that are open, the innermost first, at most
`deepest`. Gives what follows the end of the outermost; `fuel` bounds the keys. -/
def skipGroups (deepest : Nat) : Nat → List Nat → Bytes → Option Bytes
  | _, [], s => some s
  | 0, _, _ => none
  | fuel + 1, innermost :: outer, s =>
    match readKey? s with
    | none => none
    | some (number, .groupEnd, rest) =>
      if number = innermost then skipGroups deepest fuel outer rest else none
    | some (number, kind, rest) =>
      if deepest ≤ outer.length + 1 then none
      else match kind with
        | .groupStart => skipGroups deepest fuel (number :: innermost :: outer) rest
        | kind => match readPlain? kind rest with
          | some (_, rest) => skipGroups deepest fuel (innermost :: outer) rest
          | none => none

/-- Reads one field. -/
def readField? (deepest : Nat) (s : Bytes) : Option (Field × Bytes) := do
  let (number, kind, rest) ← readKey? s
  match kind with
  | .groupStart =>
    let rest ← skipGroups deepest (rest.length + 1) [number] rest
    return (⟨number, .group⟩, rest)
  | kind =>
    let (payload, rest) ← readPlain? kind rest
    return (⟨number, payload⟩, rest)

/-- Reads fields to the end of a text; `fuel` bounds their number. -/
def readFieldsWithin (deepest : Nat) : Nat → Bytes → Option (List Field)
  | _, [] => some []
  | 0, _ :: _ => none
  | fuel + 1, s@(_ :: _) =>
    match readField? deepest s with
    | some (f, rest) => (readFieldsWithin deepest fuel rest).map (f :: ·)
    | none => none

/-- The levels that groups and messages may nest. -/
def deepestNesting : Nat := 100

/-- Reads the fields of a message that stands `level` messages deep. -/
def readFields? (level : Nat) (s : Bytes) : Option (List Field) :=
  readFieldsWithin (deepestNesting - level) s.length s

/-! ### Values of fields -/

namespace Payload

/-- A number of 32 bits: the low ones of a varint. -/
def asU32? : Payload → Option UInt32
  | .varint n => some (UInt32.ofNat n)
  | _ => none

/-- A signed number of 32 bits: the low ones of a varint. -/
def asI32? : Payload → Option Int32
  | .varint n => some (UInt32.ofNat n).toInt32
  | _ => none

/-- A truth value: whether a varint is not zero. -/
def asBool? : Payload → Option Bool
  | .varint n => some (n != 0)
  | _ => none

/-- A string. -/
def asText? : Payload → Option String
  | .delimited b => Bytes.ofUtf8? b
  | _ => none

/-- The octets of a message. -/
def asMessage? : Payload → Option Bytes
  | .delimited b => some b
  | _ => none

end Payload

/-! ### Writing -/

/-- A field whose payload is a varint. -/
def varintField (number n : Nat) : Bytes := varint (number * 8) ++ varint n

/-- A field whose payload has a length. -/
def delimitedField (number : Nat) (b : Bytes) : Bytes :=
  varint (number * 8 + 2) ++ varint b.length ++ b

/-- A string; an empty one is not written. -/
def textField (number : Nat) (s : String) : Bytes :=
  if s = "" then [] else delimitedField number (Bytes.utf8 s)

/-- A number; zero is not written. -/
def u32Field (number : Nat) (n : UInt32) : Bytes :=
  if n = 0 then [] else varintField number n.toNat

/-- A signed number, written with its sign in 64 bits; zero is not written. -/
def i32Field (number : Nat) (n : Int32) : Bytes :=
  if n = 0 then [] else varintField number (n.toInt % Int.pow 2 64).toNat

/-- A truth value; `false` is not written. -/
def boolField (number : Nat) (b : Bool) : Bytes := if b then varintField number 1 else []

/-- A truth value that may be absent; `false` is written. -/
def optionalBoolField (number : Nat) : Option Bool → Bytes
  | none => []
  | some b => varintField number (if b then 1 else 0)

end CompanyRegistry.Wire
