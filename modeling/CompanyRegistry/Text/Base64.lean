import CompanyRegistry.Text.Bytes

/-!
# Base64

Three octets are four digits of six bits each. Two alphabets differ in the last two digits, and
three rules say what may follow the digits of an incomplete last group: tokens carry no padding,
stored hashes must, armoured files may. In each of them the unused low bits of the last digit are
zero, so under a fixed rule a text has one reading and a list of octets one text.
-/

namespace CompanyRegistry.Base64

/-- The alphabet's last two digits. -/
structure Alphabet where
  digit62 : Char
  digit63 : Char
  deriving DecidableEq

/-- `+` and `/`. -/
def standard : Alphabet := ⟨'+', '/'⟩

/-- `-` and `_`, safe in addresses. -/
def urlSafe : Alphabet := ⟨'-', '_'⟩

/-- What follows an incomplete last group. -/
inductive Padding where
  | never
  | always
  | optional
  deriving DecidableEq

/-- The digit of a six-bit number. -/
def Alphabet.digit (a : Alphabet) (n : Nat) : Char :=
  if n < 26 then Char.ofNat ('A'.toNat + n)
  else if n < 52 then Char.ofNat ('a'.toNat + (n - 26))
  else if n < 62 then Char.ofNat ('0'.toNat + (n - 52))
  else if n = 62 then a.digit62
  else a.digit63

/-- The six-bit number of a digit. -/
def Alphabet.value? (a : Alphabet) (c : Char) : Option Nat :=
  let n := c.toNat
  if 'A'.toNat ≤ n ∧ n ≤ 'Z'.toNat then some (n - 'A'.toNat)
  else if 'a'.toNat ≤ n ∧ n ≤ 'z'.toNat then some (n - 'a'.toNat + 26)
  else if '0'.toNat ≤ n ∧ n ≤ '9'.toNat then some (n - '0'.toNat + 52)
  else if c = a.digit62 then some 62
  else if c = a.digit63 then some 63
  else none

/-- The six-bit numbers of octets, zero bits filling the last one. -/
def sextets : Bytes → List Nat
  | [] => []
  | [x] => [x.toNat / 4, x.toNat % 4 * 16]
  | [x, y] => [x.toNat / 4, x.toNat % 4 * 16 + y.toNat / 16, y.toNat % 16 * 4]
  | x :: y :: z :: r =>
    x.toNat / 4 :: (x.toNat % 4 * 16 + y.toNat / 16) :: (y.toNat % 16 * 4 + z.toNat / 64) ::
      z.toNat % 64 :: sextets r

/-- The octets of six-bit numbers; bits left over must be zero. -/
def ofSextets? : List Nat → Option Bytes
  | [] => some []
  | [_] => none
  | [a, b] => if b % 16 = 0 then some [UInt8.ofNat (a * 4 + b / 16)] else none
  | [a, b, c] =>
    if c % 4 = 0 then some [UInt8.ofNat (a * 4 + b / 16), UInt8.ofNat (b % 16 * 16 + c / 4)]
    else none
  | a :: b :: c :: d :: r => do
    return UInt8.ofNat (a * 4 + b / 16) :: UInt8.ofNat (b % 16 * 16 + c / 4) ::
      UInt8.ofNat (c % 4 * 64 + d) :: (← ofSextets? r)

/-- The number of padding characters that complete a group of four. -/
def paddingFor (digits : Nat) : Nat := (4 - digits % 4) % 4

/-- Whether padding of this length may follow this many digits. -/
def Padding.allows (p : Padding) (digits padding : Nat) : Bool :=
  match p with
  | .never => padding == 0
  | .always => padding == paddingFor digits
  | .optional => padding == 0 || padding == paddingFor digits

/-- The text of octets, padded unless the rule forbids it. -/
def encode (a : Alphabet) (p : Padding) (b : Bytes) : List Char :=
  let digits := (sextets b).map a.digit
  match p with
  | .never => digits
  | _ => digits ++ List.replicate (paddingFor digits.length) '='

/-- The octets of a text: digits of the alphabet, then padding the rule allows. -/
def decode? (a : Alphabet) (p : Padding) (cs : List Char) : Option Bytes := do
  let digits := cs.takeWhile (· ≠ '=')
  let padding := cs.dropWhile (· ≠ '=')
  guard (padding.all (· = '='))
  guard (p.allows digits.length padding.length)
  ofSextets? (← digits.mapM a.value?)

end CompanyRegistry.Base64
