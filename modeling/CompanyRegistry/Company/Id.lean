import CompanyRegistry.Text.Blank
import CompanyRegistry.Text.Bytes

/-!
# Company identifiers

An identifier is sixteen octets. It is written in one way, as lowercase hexadecimal digits in groups
of 8, 4, 4, 4 and 12, and read in four: bare digits, the grouped form, the grouped form in braces and
the grouped form behind `urn:uuid:`, letters in either case. `Id.parse` trims blanks first.

A text that is none of these is diagnosed by a scan of its own (`Id.diagnose`): the first character that
is neither digit nor hyphen, else the number of groups, else the first group of a wrong length.
Positions and lengths count UTF-8 octets.
-/

namespace CompanyRegistry.Company

/-- The identifier of a company. -/
structure Id where
  octets : Bytes
  sixteen : octets.length = 16
  deriving DecidableEq

namespace Id

/-- Why a text is no identifier. -/
inductive Defect where
  | length (found : Nat)
  | character (found : Char) (position : Nat)
  | groupCount (found : Nat)
  | groupLength (group expected found : Nat)
  deriving DecidableEq, Repr

/-- The text of a defect. -/
def Defect.message : Defect → String
  | .length n => "invalid length: found " ++ toString n
  | .character c i => "invalid character: found `" ++ String.singleton c ++ "` at " ++ toString i
  | .groupCount n => "invalid group count: expected 5, found " ++ toString n
  | .groupLength g e n =>
    "invalid group length in group " ++ toString g ++ ": expected " ++ toString e ++ ", found " ++
      toString n

/-! ### Writing -/

/-- Digits in groups of the given lengths, hyphens between; the last group takes what is left. -/
def grouped : List Nat → List Char → List Char
  | [], cs => cs
  | n :: ns, cs => cs.take n ++ '-' :: grouped ns (cs.drop n)

/-- The lengths of all groups but the last. -/
def groupLengths : List Nat := [8, 4, 4, 4]

/-- The written form, as characters. -/
def textChars (i : Id) : List Char := grouped groupLengths (Bytes.hexChars i.octets)

/-- The written form: lowercase digits, hyphens between the groups. -/
def text (i : Id) : String := String.ofList i.textChars

instance : ToString Id := ⟨text⟩

/-! ### Reading -/

/-- The digits of grouped text: a hyphen after each of the given lengths. -/
def ungroup? : List Nat → List Char → Option (List Char)
  | [], cs => some cs
  | n :: ns, cs =>
    match cs.drop n with
    | '-' :: r => (ungroup? ns r).map (cs.take n ++ ·)
    | _ => none

/-- Thirty-two hexadecimal digits. -/
def ofDigits? (cs : List Char) : Option Id :=
  match Bytes.ofHexChars? cs with
  | some octets => if h : octets.length = 16 then some ⟨octets, h⟩ else none
  | none => none

/-- The grouped form. -/
def ofGrouped? (cs : List Char) : Option Id := do ofDigits? (← ungroup? groupLengths cs)

/-- What stands between braces. -/
def insideBraces? : List Char → Option (List Char)
  | '\x7b' :: r =>
    match r.reverse with
    | '\x7d' :: m => some m.reverse
    | _ => none
  | _ => none

/-- What stands behind `urn:uuid:`, in any case. -/
def behindPrefix? (cs : List Char) : Option (List Char) :=
  if (cs.take 9).map Char.toLower = ['u', 'r', 'n', ':', 'u', 'u', 'i', 'd', ':'] then
    some (cs.drop 9)
  else none

/-- The number of UTF-8 octets of a text. -/
def octetCount (cs : List Char) : Nat := cs.foldl (fun n c => n + c.utf8Size) 0

/-- The grouped text that a text of the right length wraps, itself included. -/
def unwrap? (cs : List Char) : Option (List Char) :=
  let n := octetCount cs
  if n = 36 then some cs
  else if n = 38 then insideBraces? cs
  else if n = 45 then behindPrefix? cs
  else none

/-- Reads one of the four forms. -/
def ofChars? (cs : List Char) : Option Id :=
  match unwrap? cs with
  | some inner => ofGrouped? inner
  | none => ofDigits? cs

/-! ### Diagnosis -/

/-- Offsets of the hyphens, or the first character that is neither hyphen nor digit. -/
def hyphens : Nat → List Char → Except (Char × Nat) (List Nat)
  | _, [] => .ok []
  | i, c :: r =>
    if c = '-' then (hyphens (i + c.utf8Size) r).map (i :: ·)
    else if (Bytes.hexValue? c).isSome then hyphens (i + c.utf8Size) r
    else .error (c, i)

/-- The first of the four groups whose hyphen is misplaced, else the last group. -/
def misplaced (length : Nat) : Nat → List (Nat × Nat × Nat) → Defect
  | g, (offset, start, expected) :: r =>
    if offset = start + expected then misplaced length (g + 1) r
    else .groupLength g expected (offset - start)
  | _, [] => .groupLength 4 12 (length - 24)

/-- The defect of a text: `body` is what is scanned, `skipped` the octets before it, `length` those of
the whole, and a text without hyphens is judged by its length if it is `bare`. -/
def scan (body : List Char) (skipped length : Nat) (bare : Bool) : Defect :=
  match hyphens 0 body with
  | .error (c, i) => .character c (skipped + i)
  | .ok offsets =>
    if offsets = [] ∧ bare then .length length
    else if offsets.length ≠ 4 then .groupCount (offsets.length + 1)
    else misplaced length 0 (offsets.zip [(0, 8), (9, 4), (14, 4), (19, 4)])

/-- Why a text that is none of the four forms is no identifier. -/
def diagnose (cs : List Char) : Defect :=
  let length := octetCount cs
  match unwrap? cs with
  | some inner => scan inner 0 36 false
  | none =>
    if length = 0 ∨ length > 45 then .length length
    else match insideBraces? cs, behindPrefix? cs with
      | some body, _ => scan body 1 length false
      | none, some body => scan body 9 length false
      | none, none => scan cs 0 length true

/-- Reads an identifier exactly as it stands. -/
def ofText? (s : String) : Option Id := ofChars? s.toList

/-- Reads an identifier after trimming. -/
def parse (s : String) : Except Defect Id :=
  let cs := Text.trim s.toList
  match ofChars? cs with
  | some i => .ok i
  | none => .error (diagnose cs)

/-- The octets of a time-ordered identifier: milliseconds since the start of 1970, then ten random octets
with the marks of version and variant in the first and the third. -/
def timeOrderedOctets (milliseconds : Nat) (random : Bytes) : Bytes :=
  let r (n : Nat) : UInt8 := random.getD n 0
  Bytes.ofNatBE 6 milliseconds ++
    [0x70 + r 0 % 16, r 1, 0x80 + r 2 % 64, r 3, r 4, r 5, r 6, r 7, r 8, r 9]

/-- A time-ordered identifier. -/
def timeOrdered (milliseconds : Nat) (random : Bytes) : Id :=
  ⟨timeOrderedOctets milliseconds random, by simp [timeOrderedOctets, Bytes.ofNatBE]⟩

/-- Whether the identifier is of the time-ordered kind, version 7 of the standard layout. -/
def isTimeOrdered (i : Id) : Bool := (i.octets.getD 6 0).toNat / 16 == 7

end Id

end CompanyRegistry.Company
