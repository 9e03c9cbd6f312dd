/-!
# Octets and their texts

A message on the wire is a list of octets. This module reads and writes the three texts an octet
list has here: UTF-8, lowercase hexadecimal, and ASCII classes of single octets.

* `utf8` / `ofUtf8?` are inverse on every string; `lossy` replaces each ill-formed sequence by the
  replacement character, one for each longest prefix that some character could have started with.
* `hex` / `ofHex?` write two lowercase digits for an octet and read either case.
-/

namespace CompanyRegistry

/-- Octets, in order. -/
abbrev Bytes := List UInt8

namespace Bytes

/-- The UTF-8 octets of a string. -/
def utf8 (s : String) : Bytes := s.toByteArray.data.toList

/-- The string with these UTF-8 octets, if they are well-formed. -/
def ofUtf8? (b : Bytes) : Option String := String.fromUTF8? ⟨b.toArray⟩

/-- A character whose first octets were read: how many are still owed, the bits so far, and the
range the next octet must lie in. -/
structure Pending where
  owed : Nat
  bits : Nat
  low : UInt8
  high : UInt8

/-- What an octet at the start of a character begins: a whole character, a longer one, or nothing. -/
def lead (b : UInt8) : Option (Char ⊕ Pending) :=
  let n := b.toNat
  if n < 0x80 then some (.inl (Char.ofNat n))
  else if n < 0xC2 then none
  else if n < 0xE0 then some (.inr ⟨1, n - 0xC0, 0x80, 0xBF⟩)
  else if n = 0xE0 then some (.inr ⟨2, 0, 0xA0, 0xBF⟩)
  else if n = 0xED then some (.inr ⟨2, 13, 0x80, 0x9F⟩)
  else if n < 0xF0 then some (.inr ⟨2, n - 0xE0, 0x80, 0xBF⟩)
  else if n = 0xF0 then some (.inr ⟨3, 0, 0x90, 0xBF⟩)
  else if n < 0xF4 then some (.inr ⟨3, n - 0xF0, 0x80, 0xBF⟩)
  else if n = 0xF4 then some (.inr ⟨3, 4, 0x80, 0x8F⟩)
  else none

/-- The characters of an octet list, `none` standing for one ill-formed sequence. -/
def units : Option Pending → Bytes → List (Option Char)
  | none, [] => []
  | some _, [] => [none]
  | none, b :: r =>
    match lead b with
    | none => none :: units none r
    | some (.inl c) => some c :: units none r
    | some (.inr p) => units (some p) r
  | some p, b :: r =>
    if p.low ≤ b && b ≤ p.high then
      let bits := p.bits * 64 + (b.toNat - 0x80)
      if p.owed ≤ 1 then some (Char.ofNat bits) :: units none r
      else units (some ⟨p.owed - 1, bits, 0x80, 0xBF⟩) r
    else
      none :: match lead b with
        | none => none :: units none r
        | some (.inl c) => some c :: units none r
        | some (.inr q) => units (some q) r

/-- The text of an octet list, each ill-formed sequence read as U+FFFD. -/
def lossy (b : Bytes) : String :=
  String.ofList ((units none b).map (·.getD '\uFFFD'))

/-- The text whose characters have the octets' numbers. -/
def latin1 (b : Bytes) : String := String.ofList (b.map fun x => Char.ofNat x.toNat)

/-- The hexadecimal digit of a number below sixteen. -/
def hexDigit (n : Nat) : Char :=
  if n < 10 then Char.ofNat ('0'.toNat + n) else Char.ofNat ('a'.toNat + (n - 10))

/-- The value of a hexadecimal digit of either case. -/
def hexValue? (c : Char) : Option Nat :=
  let n := c.toNat
  if '0'.toNat ≤ n ∧ n ≤ '9'.toNat then some (n - '0'.toNat)
  else if 'a'.toNat ≤ n ∧ n ≤ 'f'.toNat then some (n - 'a'.toNat + 10)
  else if 'A'.toNat ≤ n ∧ n ≤ 'F'.toNat then some (n - 'A'.toNat + 10)
  else none

/-- Two lowercase digits for every octet. -/
def hexChars : Bytes → List Char
  | [] => []
  | b :: r => hexDigit (b.toNat / 16) :: hexDigit (b.toNat % 16) :: hexChars r

/-- `hexChars` as a string. -/
def hex (b : Bytes) : String := String.ofList (hexChars b)

/-- Reads pairs of hexadecimal digits. -/
def ofHexChars? : List Char → Option Bytes
  | [] => some []
  | [_] => none
  | a :: b :: r => do
    let x ← hexValue? a
    let y ← hexValue? b
    return UInt8.ofNat (x * 16 + y) :: (← ofHexChars? r)

/-- `ofHexChars?` on a string. -/
def ofHex? (s : String) : Option Bytes := ofHexChars? s.toList

/-- The number that octets spell, the first one weighing most. -/
def bigEndian (b : Bytes) : Nat := b.foldl (fun n x => n * 256 + x.toNat) 0

/-- The last `width` octets of a number, the most significant first. -/
def ofNatBE : Nat → Nat → Bytes
  | 0, _ => []
  | width + 1, n => ofNatBE width (n / 256) ++ [UInt8.ofNat n]

/-- An ASCII decimal digit. -/
def isDigit (b : UInt8) : Bool := 0x30 ≤ b && b ≤ 0x39

/-- The octet of an ASCII capital letter made small, any other octet unchanged. -/
def lower (b : UInt8) : UInt8 := if 0x41 ≤ b && b ≤ 0x5A then b + 0x20 else b

/-- The rest of the octets after a given beginning. -/
def dropHead? : Bytes → Bytes → Option Bytes
  | [], s => some s
  | _ :: _, [] => none
  | p :: ps, x :: xs => if p = x then dropHead? ps xs else none

/-- Octets that occur one after another somewhere in a list. -/
def occursIn (part : Bytes) : Bytes → Bool
  | [] => part.isEmpty
  | x :: xs => (dropHead? part (x :: xs)).isSome || occursIn part xs

end Bytes

end CompanyRegistry
