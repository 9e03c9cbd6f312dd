import CompanyRegistry.Time.Date
import CompanyRegistry.Text.Blank
import CompanyRegistry.Text.Decimal

/-!
# Instants and their text

An instant is a date, a second of that day and nanoseconds. A leap second is the last second of its
minute, 23:59:59 say, with a thousand million nanoseconds or more.

`Instant.text` writes `YYYY-MM-DDTHH:MM:SS`, a fraction of 0, 3, 6 or 9 digits (the fewest that are
exact) and `Z`; a year outside 0 to 9999 carries its sign and at least four digits. `Instant.parse?`
reads this and more: blanks between the parts, numbers of one digit, a space for the `T`, small
letters, more than nine digits of a fraction (cut), and offsets, which it takes off.
-/

namespace CompanyRegistry

/-- Nanoseconds of a second. -/
def billion : Nat := 1000000000

namespace Instant

/-- A second of the day and its nanoseconds: those of a leap second only where a minute ends. -/
def OnClock (second nano : Nat) : Prop :=
  second < 86400 ∧ nano < 2 * billion ∧ (billion ≤ nano → second % 60 = 59)

instance (second nano : Nat) : Decidable (OnClock second nano) := by
  unfold OnClock; infer_instance

end Instant

/-- A point in time, in UTC. -/
structure Instant where
  date : Date
  second : Nat
  nano : Nat
  onClock : Instant.OnClock second nano
  deriving DecidableEq

namespace Instant

/-- The instant with these parts, if the clock shows them. -/
def of? (date : Date) (second nano : Nat) : Option Instant :=
  if h : OnClock second nano then some ⟨date, second, nano, h⟩ else none

/-- Whole seconds from the start of 1970; a leap second counts as the second before it. -/
def unixSeconds (t : Instant) : Int := t.date.dayNumber * 86400 + t.second

/-- The instant an amount of seconds before, if its year is in range. -/
def before? (t : Instant) (seconds : Int) : Option Instant := do
  let s : Int := t.second - seconds
  let date ← Date.ofDayNumber? (t.date.dayNumber + s / 86400)
  of? date (s % 86400).toNat t.nano

/-- The instant that many nanoseconds after the start of 1970, if its year is in range. -/
def ofNanoseconds? (n : Int) : Option Instant := do
  let seconds := n / billion
  let date ← Date.ofDayNumber? (seconds / 86400)
  of? date (seconds % 86400).toNat (n % billion).toNat

/-! ### Writing -/

/-- A year of four digits, or with its sign where four digits cannot show it. -/
def yearText (year : Int) : List Char :=
  if 0 ≤ year ∧ year ≤ 9999 then Decimal.padded 4 year.toNat
  else (if year < 0 then '-' else '+') :: Decimal.padded 4 year.natAbs

/-- The fraction of a second: nothing, or a point and three, six or nine digits. -/
def fractionText (nano : Nat) : List Char :=
  if nano = 0 then []
  else if nano % 1000000 = 0 then '.' :: Decimal.padded 3 (nano / 1000000)
  else if nano % 1000 = 0 then '.' :: Decimal.padded 6 (nano / 1000)
  else '.' :: Decimal.padded 9 nano

/-- The second of the minute; 60 in a leap second. -/
def secondOfMinute (t : Instant) : Nat :=
  t.second % 60 + (if billion ≤ t.nano then 1 else 0)

/-- The text of an instant, as characters. -/
def textChars (t : Instant) : List Char :=
  yearText t.date.year ++ '-' :: Decimal.padded 2 t.date.month ++ '-' :: Decimal.padded 2 t.date.day ++
  'T' :: Decimal.padded 2 (t.second / 3600) ++ ':' :: Decimal.padded 2 (t.second / 60 % 60) ++
  ':' :: Decimal.padded 2 t.secondOfMinute ++ fractionText (t.nano % billion) ++ ['Z']

/-- The text of an instant. -/
def text (t : Instant) : String := String.ofList t.textChars

/-! ### Reading -/

/-- A number of one digit up to `most` digits, and what follows. -/
def readNumber? (most : Nat) (cs : List Char) : Option (Nat × List Char) :=
  let ds := (cs.take most).takeWhile Decimal.isDigit
  if ds = [] then none else some (Decimal.ofDigits ds, cs.drop ds.length)

/-- A year after blanks: up to four digits, or a sign and any number of digits. -/
def readYear? (cs : List Char) : Option (Int × List Char) :=
  match Text.trimLeft cs with
  | '-' :: r => (readNumber? r.length r).map fun (n, rest) => (-(n : Int), rest)
  | '+' :: r => (readNumber? r.length r).map fun (n, rest) => ((n : Int), rest)
  | r => (readNumber? 4 r).map fun (n, rest) => ((n : Int), rest)

/-- A number of one or two digits after blanks. -/
def readPair? (cs : List Char) : Option (Nat × List Char) := readNumber? 2 (Text.trimLeft cs)

/-- A separator, blanks before it passed over. -/
def readMark? (mark : Char) (cs : List Char) : Option (List Char) :=
  match Text.trimLeft cs with
  | c :: r => if c = mark then some r else none
  | [] => none

/-- A fraction of a second in nanoseconds, digits after the ninth passed over. -/
def readFraction? : List Char → Option (Nat × List Char)
  | '.' :: r => do
    let ds := (r.take 9).takeWhile Decimal.isDigit
    guard (ds ≠ [])
    return (Decimal.ofDigits ds * Nat.pow 10 (9 - ds.length), (r.drop ds.length).dropWhile Decimal.isDigit)
  | cs => some (0, cs)

/-- Two digits. -/
def readTwoDigits? : List Char → Option (Nat × List Char)
  | a :: b :: r =>
    if Decimal.isDigit a && Decimal.isDigit b then some (Decimal.ofDigits [a, b], r) else none
  | _ => none

/-- An offset from UTC in seconds: `Z`, `UTC`, or a sign, hours, colons or blanks, minutes. -/
def readOffset? (cs : List Char) : Option (Int × List Char) :=
  let cs := Text.trimLeft cs
  if (cs.take 3).map Char.toUpper = ['U', 'T', 'C'] then some (0, cs.drop 3)
  else match cs with
    | [] => none
    | c :: r =>
      if c = 'Z' ∨ c = 'z' then some (0, r)
      else if c = '+' ∨ c = '-' ∨ c = '−' then do
        let (hours, r) ← readTwoDigits? r
        let (minutes, r) ← readTwoDigits? (r.dropWhile fun c => c == ':' || Text.isBlank c)
        guard (minutes < 60)
        let seconds : Int := hours * 3600 + minutes * 60
        return (if c = '+' then seconds else -seconds, r)
      else none

/-- Reads an instant; nothing but blanks may follow it. -/
def parseChars? (cs : List Char) : Option Instant := do
  let (year, cs) ← readYear? cs
  let cs ← readMark? '-' cs
  let (month, cs) ← readPair? cs
  let cs ← readMark? '-' cs
  let (day, cs) ← readPair? cs
  let date ← Date.of? year month day
  let cs ← match cs with
    | c :: r => if c = 'T' ∨ c = 't' ∨ c = ' ' then some r else none
    | [] => none
  let (hour, cs) ← readPair? cs
  let cs ← readMark? ':' cs
  let (minute, cs) ← readPair? cs
  let cs ← readMark? ':' cs
  let (second, cs) ← readPair? cs
  guard (hour < 24 ∧ minute < 60 ∧ second ≤ 60)
  let (nano, cs) ← readFraction? cs
  let (offset, cs) ← readOffset? cs
  guard (cs.all Text.isBlank)
  guard (-86400 < offset ∧ offset < 86400)
  let local_ ←
    if second = 60 then of? date (hour * 3600 + minute * 60 + 59) (billion + nano)
    else of? date (hour * 3600 + minute * 60 + second) nano
  if offset = 0 then some local_ else local_.before? offset

/-- Reads the text of an instant. -/
def parse? (s : String) : Option Instant := parseChars? s.toList

end Instant

end CompanyRegistry
