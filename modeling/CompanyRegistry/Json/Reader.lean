import CompanyRegistry.Json.Value

/-!
# Reading JSON from octets

`Json.read` takes the octets of a text and gives the value at its start with the octets after it.
It never fails: where the text is not JSON the value says so (`broken`, `torn`), and nothing is left
to read. What a string spells is looked at only after its end is found, so a string that is not used
may hold octets that are no UTF-8 and halves of surrogate pairs.

Main properties (stated with the round trip of values): reading what `render` wrote, followed by
anything that cannot lengthen a number, gives the value back and leaves what followed.
-/

namespace CompanyRegistry.Json

/-- Octets that may stand between the parts of a text. -/
def isSpace (b : UInt8) : Bool := b == 0x20 || b == 0x0A || b == 0x0D || b == 0x09

/-- The value of a hexadecimal digit written as an octet. -/
def hexOctet? (b : UInt8) : Option Nat := Bytes.hexValue? (Char.ofNat b.toNat)

/-- The number that four hexadecimal digits spell. -/
def hex4? (a b c d : UInt8) : Option Nat := do
  return (((← hexOctet? a) * 16 + (← hexOctet? b)) * 16 + (← hexOctet? c)) * 16 + (← hexOctet? d)

/-- What the letter after a backslash stands for, `u` aside. -/
def shortEscape? (b : UInt8) : Option UInt8 :=
  if b = 0x22 ∨ b = 0x5C ∨ b = 0x2F then some b
  else if b = 0x62 then some 0x08
  else if b = 0x66 then some 0x0C
  else if b = 0x6E then some 0x0A
  else if b = 0x72 then some 0x0D
  else if b = 0x74 then some 0x09
  else none

/-- First half of a surrogate pair. -/
def isHighSurrogate (n : Nat) : Bool := 0xD800 ≤ n && n < 0xDC00

/-- Second half of a surrogate pair. -/
def isLowSurrogate (n : Nat) : Bool := 0xDC00 ≤ n && n < 0xE000

/-- The character of a surrogate pair. -/
def pairChar (high low : Nat) : Char :=
  Char.ofNat (0x10000 + (high - 0xD800) * 0x400 + (low - 0xDC00))

/-- Octets put before a reversed list. -/
def pushChar (c : Char) (acc : Bytes) : Bytes := (String.utf8EncodeChar c).reverse ++ acc

/-- The octets of a string after its opening quote, in reverse, whether all its escapes are
characters, and what follows its closing quote. `none` if it has no end, a raw control character
or a malformed escape. The two halves of a
surrogate pair are one character; a half alone is none. -/
def readString (acc : Bytes) (sound : Bool) : Bytes → Option (Bytes × Bool × Bytes)
  | [] => none
  | b :: r =>
    if b = 0x22 then some (acc, sound, r)
    else if b = 0x5C then
      match r with
      | [] => none
      | e :: r₁ =>
        if e = 0x75 then
          match r₁ with
          | c₁ :: c₂ :: c₃ :: c₄ :: r₂ =>
            match hex4? c₁ c₂ c₃ c₄ with
            | none => none
            | some n =>
              if isLowSurrogate n then readString acc false r₂
              else if isHighSurrogate n then
                match r₂ with
                | x :: y :: d₁ :: d₂ :: d₃ :: d₄ :: r₃ =>
                  if x = 0x5C ∧ y = 0x75 then
                    match hex4? d₁ d₂ d₃ d₄ with
                    | none => none
                    | some m =>
                      if isLowSurrogate m then readString (pushChar (pairChar n m) acc) sound r₃
                      else readString acc false (x :: y :: d₁ :: d₂ :: d₃ :: d₄ :: r₃)
                  else readString acc false (x :: y :: d₁ :: d₂ :: d₃ :: d₄ :: r₃)
                | r₃ => readString acc false r₃
              else readString (pushChar (Char.ofNat n) acc) sound r₂
          | _ => none
        else
          match shortEscape? e with
          | none => none
          | some c => readString (c :: acc) sound r₁
    else if b < 0x20 then none
    else readString (b :: acc) sound r

/-- A string as a value. -/
def stringValue (acc : Bytes) (sound : Bool) : Json :=
  match sound, Bytes.ofUtf8? acc.reverse with
  | true, some s => .text s
  | _, _ => .garbled

/-- The text of a member's name. -/
def nameOf (acc : Bytes) (sound : Bool) : Option String :=
  if sound then Bytes.ofUtf8? acc.reverse else none

/-- The number that decimal digits spell. -/
def digitsValue (ds : Bytes) : Nat := ds.foldl (fun n d => n * 10 + (d.toNat - 0x30)) 0

/-- Whether `m · 10 ^ e` is too large for a floating-point number: rounding to nearest takes it past
the greatest finite one. Magnitudes far from the limit are told by their length alone. -/
def tooLarge (m : Nat) (e : Int) : Bool :=
  if m = 0 then false
  else
    let size : Int := (Decimal.digits m).length + e
    if size > 320 then true
    else if size < 300 then false
    else match e with
      | .ofNat k => m * Nat.pow 10 k ≥ Nat.pow 2 1024 - Nat.pow 2 970
      | .negSucc k => m ≥ (Nat.pow 2 1024 - Nat.pow 2 970) * Nat.pow 10 (k + 1)

/-- The number that a sign, digits, a fraction and an exponent make. -/
def numberOf (negative : Bool) (digits fraction : Bytes) (exponent : Option Int) : Number :=
  let m := digitsValue digits
  match fraction, exponent with
  | [], none =>
    if negative then
      if m = 0 then .fractional
      else if m ≤ Nat.pow 2 63 then .whole (-(m : Int))
      else if tooLarge m 0 then .unbounded else .fractional
    else if m < Nat.pow 2 64 then .whole m
    else if tooLarge m 0 then .unbounded else .fractional
  | _, _ =>
    if tooLarge (digitsValue (digits ++ fraction)) (exponent.getD 0 - fraction.length) then .unbounded
    else .fractional

/-- An exponent after its `e`: a sign and at least one digit. -/
def readExponent? (s : Bytes) : Option (Int × Bytes) :=
  let (negative, r) := match s with
    | 0x2B :: r => (false, r)
    | 0x2D :: r => (true, r)
    | _ => (false, s)
  let ds := r.takeWhile Bytes.isDigit
  if ds = [] then none
  else
    let n : Int := digitsValue ds
    some (if negative then -n else n, r.dropWhile Bytes.isDigit)

/-- A fraction after its point: at least one digit. Without a point there is none. -/
def readFraction? : Bytes → Option (Bytes × Bytes)
  | 0x2E :: r =>
    let ds := r.takeWhile Bytes.isDigit
    if ds = [] then none else some (ds, r.dropWhile Bytes.isDigit)
  | s => some ([], s)

/-- A number: no leading zeros, digits on both sides of a point, digits in the exponent. -/
def readNumber? (s : Bytes) : Option (Number × Bytes) :=
  let (negative, s) := match s with
    | 0x2D :: r => (true, r)
    | _ => (false, s)
  let ds := s.takeWhile Bytes.isDigit
  if ds = [] ∨ (ds.length > 1 ∧ ds.head? = some 0x30) then none
  else do
    let (fraction, r) ← readFraction? (s.dropWhile Bytes.isDigit)
    match r with
    | e :: r' =>
      if e = 0x65 ∨ e = 0x45 then
        let (exponent, r'') ← readExponent? r'
        return (numberOf negative ds fraction (some exponent), r'')
      else return (numberOf negative ds fraction none, r)
    | [] => return (numberOf negative ds fraction none, r)

/-- A literal word, of which the whole must stand there. -/
def readWord (word : Bytes) (v : Json) (s : Bytes) : Json × Bytes :=
  match Bytes.dropHead? word s with
  | some r => (v, r)
  | none => (.broken, [])

/-- A string, a number or a word. -/
def readScalar : Bytes → Json × Bytes
  | [] => (.broken, [])
  | b :: r =>
    if b = 0x22 then
      match readString [] true r with
      | some (acc, sound, rest) => (stringValue acc sound, rest)
      | none => (.broken, [])
    else if b = 0x74 then readWord [0x72, 0x75, 0x65] (.bool true) r
    else if b = 0x66 then readWord [0x61, 0x6C, 0x73, 0x65] (.bool false) r
    else if b = 0x6E then readWord [0x75, 0x6C, 0x6C] .null r
    else match readNumber? (b :: r) with
      | some (n, rest) => (.number n, rest)
      | none => (.broken, [])

/-- A member's name and the colon after it: the name, and what follows the colon unless it is
missing. `none` if there is no name. -/
def readName? : Bytes → Option (Option String × Option Bytes)
  | 0x22 :: r =>
    match readString [] true r with
    | none => none
    | some (acc, sound, rest) =>
      match rest.dropWhile isSpace with
      | 0x3A :: r' => some (nameOf acc sound, some r')
      | _ => some (nameOf acc sound, none)
  | _ => none

mutual

/-- A value, after the blanks before it. The first argument bounds the nesting and the number of
parts; twice the length of the text always suffices. -/
def readValue : Nat → Bytes → Json × Bytes
  | 0, _ => (.broken, [])
  | fuel + 1, s =>
    match s.dropWhile isSpace with
    | 0x5B :: r =>
      match r.dropWhile isSpace with
      | 0x5D :: r' => (.array [], r')
      | r' =>
        let (items, rest) := readItems fuel [] r'
        (.array items, rest)
    | 0x7B :: r =>
      match r.dropWhile isSpace with
      | 0x7D :: r' => (.object [], r')
      | r' =>
        let (members, rest) := readMembers fuel [] r'
        (.object members, rest)
    | s' => readScalar s'

/-- The items of an array up to its end; those before are given in reverse. -/
def readItems : Nat → List Json → Bytes → List Json × Bytes
  | 0, acc, _ => ((.broken :: acc).reverse, [])
  | fuel + 1, acc, s =>
    let (v, rest) := readValue fuel s
    match rest.dropWhile isSpace with
    | 0x5D :: r => ((v :: acc).reverse, r)
    | 0x2C :: r => readItems fuel (v :: acc) r
    | _ => ((.broken :: v :: acc).reverse, [])

/-- The members of an object up to its end; those before are given in reverse. -/
def readMembers : Nat → List Member → Bytes → List Member × Bytes
  | 0, acc, _ => ((.torn :: acc).reverse, [])
  | fuel + 1, acc, s =>
    match readName? (s.dropWhile isSpace) with
    | none => ((.torn :: acc).reverse, [])
    | some (name, none) => ((.entry name .broken :: acc).reverse, [])
    | some (name, some r) =>
      let (v, rest) := readValue fuel r
      match rest.dropWhile isSpace with
      | 0x7D :: r => ((.entry name v :: acc).reverse, r)
      | 0x2C :: r => readMembers fuel (.entry name v :: acc) r
      | _ => ((.torn :: .entry name v :: acc).reverse, [])

end

/-- The value at the start of a text, and the octets after it. -/
def read (s : Bytes) : Json × Bytes := readValue (2 * s.length + 2) s

/-- Whether only blanks are left. -/
def onlySpace (s : Bytes) : Bool := s.all isSpace

end CompanyRegistry.Json
