import CompanyRegistry.Text.Base64
import CompanyRegistry.Text.Quoted

/-!
# Armoured files

Certificates and keys come in text files, each between a line `-----BEGIN X-----` and a line that
starts `-----END X-----` of the same label, in base64. Text outside sections and sections of an
unknown label are passed over. A second beginning inside a section renames the section and keeps the
text gathered so far.

* `read` gives the sections of a text in order, up to the first defect.
* `decode` is generous where files vary: blanks inside the base64, missing padding, and the low bits
  of the last digit do not matter.
-/

namespace CompanyRegistry.Tls.Pem

/-- What a section of a known label holds. -/
inductive Label where
  | certificate
  | publicKey
  | rsaKey
  | privateKey
  | curveKey
  | revocationList
  | request
  | clientHello
  deriving DecidableEq

/-- The meaning of a label's text. -/
def Label.ofText? (b : Bytes) : Option Label :=
  if b = Bytes.utf8 "CERTIFICATE" then some .certificate
  else if b = Bytes.utf8 "PUBLIC KEY" then some .publicKey
  else if b = Bytes.utf8 "RSA PRIVATE KEY" then some .rsaKey
  else if b = Bytes.utf8 "PRIVATE KEY" then some .privateKey
  else if b = Bytes.utf8 "EC PRIVATE KEY" then some .curveKey
  else if b = Bytes.utf8 "X509 CRL" then some .revocationList
  else if b = Bytes.utf8 "CERTIFICATE REQUEST" then some .request
  else if b = Bytes.utf8 "ECHCONFIG" then some .clientHello
  else none

/-- A section of a known label. -/
structure Section where
  label : Label
  octets : Bytes
  deriving DecidableEq

/-! ### Base64 -/

/-- Why a section is no base64. -/
inductive Garble where
  | character (octet : UInt8)
  | earlyPadding
  | badPadding
  deriving DecidableEq

/-- The name the defect is reported by. -/
def Garble.message : Garble → String
  | .character octet => "InvalidCharacter(" ++ toString octet.toNat ++ ")"
  | .earlyPadding => "PrematurePadding"
  | .badPadding => "InvalidPadding"

/-- Tab, line feed, carriage return and space. -/
def isBlank (b : UInt8) : Bool := b == 0x09 || b == 0x0A || b == 0x0D || b == 0x20

/-- The octets of digits whose last group may be short; bits past the last octet are dropped. -/
def ofDigits? (digits : List Nat) : Option Bytes := do
  let octets ← Base64.ofSextets? (digits ++ List.replicate (Base64.paddingFor digits.length) 0)
  return octets.take (digits.length * 3 / 4)

/-- The octets of at most eight digits that end a section, padding read as `none`. Padding belongs to
the last group of four, behind its digits. -/
def lastDigits (held : List (Option Nat)) : Except Garble Bytes :=
  if (held.take (held.length - 4)).any (·.isNone) then .error .earlyPadding
  else
    let digits := (held.takeWhile (·.isSome)).filterMap id
    let padding := held.dropWhile (·.isSome)
    if padding.all (·.isNone) && digits.length % 4 != 1 &&
        Base64.Padding.optional.allows digits.length padding.length then
      match ofDigits? digits with
      | some octets => .ok octets
      | none => .error .badPadding
    else .error .badPadding

/-- Reads digits eight at a time; `held` are those read since the last eight. -/
def readDigits (held : List (Option Nat)) : Bytes → Except Garble Bytes
  | [] => lastDigits held
  | b :: r =>
    let read (digit : Option Nat) : Except Garble Bytes :=
      if held.length < 8 then readDigits (held ++ [digit]) r
      else if held.any (·.isNone) then .error .earlyPadding
      else do
        let octets ← readDigits [digit] r
        return (ofDigits? (held.filterMap id)).getD [] ++ octets
    if isBlank b then readDigits held r
    else if b = 0x3D then read none
    else match Base64.standard.value? (Char.ofNat b.toNat) with
      | some digit => read (some digit)
      | none => .error (.character b)

/-- The octets of base64 text. -/
def decode (b : Bytes) : Except Garble Bytes := readDigits [] b

/-! ### Sections -/

/-- Why a text has no further sections to give. -/
inductive Defect where
  | unclosed (label : Bytes)
  | opening (line : Bytes)
  | garbled (g : Garble)
  deriving DecidableEq

/-- The line that closes a section. -/
def closing (label : Bytes) : Bytes := Bytes.utf8 "-----END " ++ label ++ Bytes.utf8 "-----"

/-- The defect as it is reported. -/
def Defect.message : Defect → String
  | .unclosed label => "section end " ++ Text.shown (Bytes.lossy (closing label)) ++ " missing"
  | .opening line => "illegal section start: " ++ Text.shown (Bytes.lossy line)
  | .garbled g => g.message

/-- Lines with their ends; a line feed ends a line, and so does a carriage return. -/
def lines : Bytes → List Bytes
  | [] => []
  | b :: r =>
    if b = 0x0A ∨ b = 0x0D then [b] :: lines r
    else match lines r with
      | [] => [[b]]
      | l :: ls => (b :: l) :: ls

/-- The octets from which an opening line's label starts. -/
def opening : Bytes := Bytes.utf8 "-----BEGIN "

/-- The end of an opening line, from its last octet on: dashes among blanks. -/
def trailer (line : Bytes) : Bytes :=
  line.reverse.takeWhile fun b => b == 0x2D || b == 0x0A || b == 0x0D || b == 0x20

/-- Whether a line opens a section, and of which label: five dashes end the label. -/
def opens (line : Bytes) : Except Defect (Option Bytes) :=
  if (Bytes.dropHead? opening line).isNone then .ok none
  else
    let dashes := (trailer line).filter (· == 0x2D)
    if dashes.length ≠ 5 then .error (.opening line)
    else
      let tail := (trailer line).reverse.dropWhile (· != 0x2D)
      .ok (some ((line.take (line.length - tail.length)).drop opening.length))

/-- The sections of lines, with the defect that ends them early. `current` is the label of the open
section and `text` what it gathered. -/
def readLines (current : Option Bytes) (text : Bytes) : List Bytes → List Section × Option Defect
  | [] => ([], current.map .unclosed)
  | line :: rest =>
    match opens line with
    | .error d => ([], some d)
    | .ok (some label) => readLines (some label) text rest
    | .ok none =>
      match current with
      | none => readLines none text rest
      | some name =>
        if (Bytes.dropHead? (closing name) line).isNone then readLines current (text ++ line) rest
        else match Label.ofText? name with
          | none => readLines none [] rest
          | some label =>
            match decode text with
            | .error g => ([], some (.garbled g))
            | .ok octets =>
              let (more, defect) := readLines none [] rest
              (⟨label, octets⟩ :: more, defect)

/-- The sections of a text up to the first defect, and that defect. -/
def read (b : Bytes) : List Section × Option Defect := readLines none [] (lines b)

end CompanyRegistry.Tls.Pem
