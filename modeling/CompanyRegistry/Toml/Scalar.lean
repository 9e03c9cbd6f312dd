import CompanyRegistry.Text.Bytes
import CompanyRegistry.Time.Date
import CompanyRegistry.Toml.Value

/-!
# Keys, strings, numbers and moments of TOML

Each reader takes the characters from a place on and gives what it found with the characters after it, or
nothing. Numbers may hold single underscores between digits; integers have 64 bits; strings come in four
forms, two of them over several lines, where line ends count as one character.
-/

namespace CompanyRegistry.Toml

/-- A blank inside a line. -/
def isSpace (c : Char) : Bool := c == ' ' || c == '\t'

/-- Passes over blanks inside a line. -/
def skipSpace (cs : List Char) : List Char := cs.dropWhile isSpace

/-- A line end: a line feed, with or without a carriage return before it. -/
def readNewline? : List Char → Option (List Char)
  | '\n' :: r => some r
  | '\r' :: '\n' :: r => some r
  | _ => none

/-- A character that no string and no comment holds as it is; tab is not one of them. -/
def isControl (c : Char) : Bool := (c.toNat < 0x20 && c != '\t') || c.toNat == 0x7F

/-- What is left of a line after a comment. -/
def skipComment : List Char → List Char
  | '#' :: r => r.dropWhile fun c => !isControl c
  | cs => cs

/-- The end of a line: blanks, a comment, a line end or the end of the text. -/
def readLineEnd? (cs : List Char) : Option (List Char) :=
  match skipComment (skipSpace cs) with
  | [] => some []
  | r => readNewline? r

/-- Passes over blanks, comments and line ends; `fuel` bounds their number. -/
def skipLines : Nat → List Char → List Char
  | 0, cs => cs
  | fuel + 1, cs =>
    match skipComment (skipSpace cs) with
    | '\n' :: r => skipLines fuel r
    | '\r' :: '\n' :: r => skipLines fuel r
    | r => r

/-! ### Strings -/

/-- A character given by so many hexadecimal digits. -/
def readCodePoint? (width : Nat) (cs : List Char) : Option (Char × List Char) := do
  let ds ← (cs.take width).mapM Bytes.hexValue?
  guard (ds.length = width)
  let n := ds.foldl (fun n d => n * 16 + d) 0
  guard (n < 0xD800 ∨ (0xDFFF < n ∧ n < 0x110000))
  return (Char.ofNat n, cs.drop width)

/-- What follows a backslash. -/
def readEscape? : List Char → Option (Char × List Char)
  | [] => none
  | c :: r =>
    if c = 'b' then some ('\x08', r)
    else if c = 't' then some ('\t', r)
    else if c = 'n' then some ('\n', r)
    else if c = 'f' then some ('\x0c', r)
    else if c = 'r' then some ('\r', r)
    else if c = '"' then some ('"', r)
    else if c = '\\' then some ('\\', r)
    else if c = 'u' then readCodePoint? 4 r
    else if c = 'U' then readCodePoint? 8 r
    else none

/-- A quoted string on one line, after its opening quote. -/
def readBasic? : Nat → List Char → List Char → Option (List Char × List Char)
  | 0, _, _ => none
  | _ + 1, _, [] => none
  | fuel + 1, acc, c :: r =>
    if c = '"' then some (acc.reverse, r)
    else if c = '\\' then
      match readEscape? r with
      | some (e, r') => readBasic? fuel (e :: acc) r'
      | none => none
    else if isControl c then none
    else readBasic? fuel (c :: acc) r

/-- A string taken literally on one line, after its opening apostrophe. -/
def readLiteral? (cs : List Char) : Option (List Char × List Char) :=
  let body := cs.takeWhile fun c => c ≠ '\'' && !isControl c
  match cs.drop body.length with
  | '\'' :: r => some (body, r)
  | _ => none

/-- The end of a string over several lines: three quotes, before which up to two more belong to the
string. -/
def readTriple? (quote : Char) (cs : List Char) : Option (List Char × List Char) :=
  let run := (cs.takeWhile (· = quote)).length
  if run < 3 then none
  else
    let extra := min (run - 3) 2
    some (List.replicate extra quote, cs.drop (extra + 3))

/-- A line end escaped by a backslash, with all blanks and line ends after it. -/
def readContinuation? (cs : List Char) : Option (List Char) :=
  match readNewline? (skipSpace cs) with
  | some r => some (r.dropWhile fun c => isSpace c || c == '\n' || c == '\r')
  | none => none

/-- A quoted string over several lines, after its opening quotes. -/
def readLongBasic? : Nat → List Char → List Char → Option (List Char × List Char)
  | 0, _, _ => none
  | _ + 1, _, [] => none
  | fuel + 1, acc, c :: r =>
    match readTriple? '"' (c :: r) with
    | some (extra, rest) => some (acc.reverse ++ extra, rest)
    | none =>
      if c = '\\' then
        match readContinuation? r with
        | some r' => readLongBasic? fuel acc r'
        | none =>
          match readEscape? r with
          | some (e, r') => readLongBasic? fuel (e :: acc) r'
          | none => none
      else match readNewline? (c :: r) with
        | some r' => readLongBasic? fuel ('\n' :: acc) r'
        | none => if isControl c then none else readLongBasic? fuel (c :: acc) r

/-- A literal string over several lines, after its opening apostrophes. -/
def readLongLiteral? : Nat → List Char → List Char → Option (List Char × List Char)
  | 0, _, _ => none
  | _ + 1, _, [] => none
  | fuel + 1, acc, c :: r =>
    match readTriple? '\'' (c :: r) with
    | some (extra, rest) => some (acc.reverse ++ extra, rest)
    | none =>
      match readNewline? (c :: r) with
      | some r' => readLongLiteral? fuel ('\n' :: acc) r'
      | none => if isControl c then none else readLongLiteral? fuel (c :: acc) r

/-- A line end right after the opening of a string over several lines does not count. -/
def skipFirstNewline (cs : List Char) : List Char := (readNewline? cs).getD cs

/-- A string in any of the four forms. -/
def readString? (cs : List Char) : Option (List Char × List Char) :=
  match cs with
  | '"' :: '"' :: '"' :: r =>
    let r := skipFirstNewline r
    readLongBasic? (r.length + 1) [] r
  | '\'' :: '\'' :: '\'' :: r =>
    let r := skipFirstNewline r
    readLongLiteral? (r.length + 1) [] r
  | '"' :: r => readBasic? (r.length + 1) [] r
  | '\'' :: r => readLiteral? r
  | _ => none

/-! ### Keys -/

/-- A character of a bare key. -/
def isBare (c : Char) : Bool := c.isAlphanum || c == '_' || c == '-'

/-- A key without dots: bare, or a string on one line. -/
def readSimpleKey? (cs : List Char) : Option (String × List Char) :=
  match cs with
  | '"' :: r => (readBasic? (r.length + 1) [] r).map fun (s, r') => (String.ofList s, r')
  | '\'' :: r => (readLiteral? r).map fun (s, r') => (String.ofList s, r')
  | _ =>
    let bare := cs.takeWhile isBare
    if bare = [] then none else some (String.ofList bare, cs.drop bare.length)

/-- Keys between dots, blanks allowed around each. -/
def readKeys? : Nat → List Char → Option (List String × List Char)
  | 0, _ => none
  | fuel + 1, cs =>
    match readSimpleKey? (skipSpace cs) with
    | none => none
    | some (key, r) =>
      match skipSpace r with
      | '.' :: r' => (readKeys? fuel r').map fun (keys, rest) => (key :: keys, rest)
      | r' => some ([key], r')

/-! ### Numbers and moments -/

/-- Digits of a class, an underscore allowed where digits stand on both sides; the digits, and what
follows. `behind` says whether a digit stands right before. -/
def readDigits (isDigit : Char → Bool) (behind : Bool) : List Char → List Char × List Char
  | [] => ([], [])
  | c :: r =>
    if isDigit c then
      let (ds, rest) := readDigits isDigit true r
      (c :: ds, rest)
    else if c = '_' ∧ behind = true ∧ r.head?.any isDigit = true then readDigits isDigit false r
    else ([], c :: r)

/-- The number of digits of a base. -/
def ofBase (base : Nat) (ds : List Char) : Nat :=
  ds.foldl (fun n c => n * base + (Bytes.hexValue? c).getD 0) 0

/-- A digit of a base up to sixteen. -/
def isDigitOf (base : Nat) (c : Char) : Bool := (Bytes.hexValue? c).any (· < base)

/-- An integer after its base's mark. -/
def readBased? (base : Nat) (cs : List Char) : Option (Int × List Char) :=
  let (ds, r) := readDigits (isDigitOf base) false cs
  if ds = [] ∨ ofBase base ds ≥ Nat.pow 2 63 then none else some (ofBase base ds, r)

/-- A sign, if there is one: whether it is a minus, and what follows. -/
def readSign : List Char → Bool × List Char
  | '+' :: r => (false, r)
  | '-' :: r => (true, r)
  | cs => (false, cs)

/-- Decimal digits without leading zeros. -/
def readWhole? (cs : List Char) : Option (List Char × List Char) :=
  match cs with
  | '0' :: r => some (['0'], r)
  | _ =>
    let (ds, r) := readDigits Decimal.isDigit false cs
    if ds = [] then none else some (ds, r)

/-- An integer: decimal with a sign, or of base 16, 8 or 2 without one. -/
def readInteger? (cs : List Char) : Option (Int × List Char) :=
  match cs with
  | '0' :: 'x' :: r => readBased? 16 r
  | '0' :: 'o' :: r => readBased? 8 r
  | '0' :: 'b' :: r => readBased? 2 r
  | _ => do
    let (negative, r) := readSign cs
    let (ds, rest) ← readWhole? r
    let n := Decimal.ofDigits ds
    guard (n < Nat.pow 2 63 ∨ (negative ∧ n = Nat.pow 2 63))
    return (if negative then -(n : Int) else n, rest)

/-- An exponent of a fraction: its letter, a sign, digits. -/
def readExponent? (cs : List Char) : Option (Int × List Char) :=
  match cs with
  | c :: r =>
    if c = 'e' ∨ c = 'E' then
      let (negative, r) := readSign r
      let (ds, rest) := readDigits Decimal.isDigit false r
      if ds = [] then none
      else some (if negative then -(Decimal.ofDigits ds : Int) else Decimal.ofDigits ds, rest)
    else none
  | [] => none

/-- Whether `m · 10 ^ e` is beyond every finite floating-point number. -/
def isInfinite (m : Nat) (e : Int) : Bool :=
  if m = 0 then false
  else
    let size : Int := (Decimal.digits m).length + e
    if size > 320 then true
    else if size < 300 then false
    else match e with
      | .ofNat k => m * Nat.pow 10 k ≥ Nat.pow 2 1024 - Nat.pow 2 970
      | .negSucc k => m ≥ (Nat.pow 2 1024 - Nat.pow 2 970) * Nat.pow 10 (k + 1)

/-- A number with a fraction or an exponent, or one of the words for no number and infinity. -/
def readFloat? (cs : List Char) : Option (List Char) :=
  let (negative, r) := readSign cs
  match r with
  | 'i' :: 'n' :: 'f' :: rest => some rest
  | 'n' :: 'a' :: 'n' :: rest => some rest
  | _ => do
    let (ds, r) ← readWhole? r
    let (fraction, r, hasFraction) ← match r with
      | '.' :: r' =>
        let (fs, rest) := readDigits Decimal.isDigit false r'
        if fs = [] then none else some (fs, rest, true)
      | _ => some ([], r, false)
    let (exponent, rest, hasExponent) := match readExponent? r with
      | some (e, rest) => (e, rest, true)
      | none => (0, r, false)
    guard (hasFraction ∨ hasExponent)
    guard (negative ∨ !isInfinite (Decimal.ofDigits (ds ++ fraction)) (exponent - fraction.length))
    return rest

/-- So many decimal digits. -/
def readFixed? (width : Nat) (cs : List Char) : Option (Nat × List Char) :=
  let ds := cs.take width
  if ds.length = width ∧ ds.all Decimal.isDigit then some (Decimal.ofDigits ds, cs.drop width) else none

/-- A given character. -/
def readMark? (mark : Char) : List Char → Option (List Char)
  | c :: r => if c = mark then some r else none
  | [] => none

/-- A date that the calendar has. -/
def readDate? (cs : List Char) : Option (List Char) := do
  let (year, r) ← readFixed? 4 cs
  let r ← readMark? '-' r
  let (month, r) ← readFixed? 2 r
  let r ← readMark? '-' r
  let (day, r) ← readFixed? 2 r
  guard (Date.Exists year month day)
  return r

/-- A time of day with its seconds; a fraction may follow. -/
def readTime? (cs : List Char) : Option (List Char) := do
  let (hour, r) ← readFixed? 2 cs
  let r ← readMark? ':' r
  let (minute, r) ← readFixed? 2 r
  let r ← readMark? ':' r
  let (second, r) ← readFixed? 2 r
  guard (hour < 24 ∧ minute < 60 ∧ second ≤ 60)
  match r with
  | '.' :: f =>
    let ds := f.takeWhile Decimal.isDigit
    return if ds = [] then r else f.drop ds.length
  | _ => return r

/-- An offset from UTC. -/
def readOffset? (cs : List Char) : Option (List Char) :=
  match cs with
  | [] => none
  | c :: r =>
    if c = 'Z' ∨ c = 'z' then some r
    else if c = '+' ∨ c = '-' then do
      let (hour, r) ← readFixed? 2 r
      let r ← readMark? ':' r
      let (minute, r) ← readFixed? 2 r
      guard (hour < 24 ∧ minute < 60)
      return r
    else none

/-- A moment: a date, a time, or both with or without an offset. -/
def readMoment? (cs : List Char) : Option (List Char) :=
  match readDate? cs with
  | none => readTime? cs
  | some r =>
    match r with
    | [] => some r
    | c :: r' =>
      if c = 'T' ∨ c = 't' ∨ c = ' ' then
        match readTime? r' with
        | some r'' => some ((readOffset? r'').getD r'')
        | none => some r
      else some r

end CompanyRegistry.Toml
