import CompanyRegistry.Toml.Value
import CompanyRegistry.Text.Bytes

/-!
# Writing TOML

A string is written in the plainest form that shows it: between quotes if nothing in it has to be
escaped, else between apostrophes, else in the long forms of the two, else with escapes. An array of
two items or more takes a line for each.
-/

namespace CompanyRegistry.Toml

/-- The length of the longest run of a character. -/
def longestRun (c : Char) (cs : List Char) : Nat :=
  (cs.foldl (fun (best, run) x => if x = c then (max best (run + 1), run + 1) else (best, 0)) (0, 0)).1

/-- A character that has to be escaped: a control other than tab and line feed. -/
def needsEscape (c : Char) : Bool :=
  (c.toNat < 0x20 && c != '\t' && c != '\n') || c.toNat == 0x7F

/-- The forms in which a string is written. -/
inductive StringForm where
  | basic
  | literal
  | longBasic
  | longLiteral
  deriving DecidableEq, Repr

/-- The plainest form that shows a text. -/
def formOf (cs : List Char) : StringForm :=
  let escapes := cs.any needsEscape
  let backslash := cs.contains '\\'
  let newline := cs.contains '\n'
  let quotes := longestRun '"' cs
  let apostrophes := longestRun '\'' cs
  if !escapes && !backslash && quotes == 0 && !newline then .basic
  else if !escapes && apostrophes == 0 && !newline then .literal
  else if !escapes && !backslash && quotes ≤ 2 then .longBasic
  else if !escapes && apostrophes ≤ 2 then .longLiteral
  else if newline then .longBasic
  else .basic

/-- The uppercase hexadecimal digit of a number below sixteen. -/
def upperHex (n : Nat) : Char := (Bytes.hexDigit n).toUpper

/-- A character between quotes, quotes and line feeds aside. -/
def escapeChar (c : Char) : List Char :=
  if c = '\x08' then ['\\', 'b']
  else if c = '\t' then ['\\', 't']
  else if c = '\x0c' then ['\\', 'f']
  else if c = '\r' then ['\\', 'r']
  else if c = '\\' then ['\\', '\\']
  else if needsEscape c then ['\\', 'u', '0', '0', upperHex (c.toNat / 16), upperHex (c.toNat % 16)]
  else [c]

/-- Characters between quotes on one line. -/
def escapeLine (cs : List Char) : List Char :=
  cs.flatMap fun c =>
    if c = '"' then ['\\', '"'] else if c = '\n' then ['\\', 'n'] else escapeChar c

/-- Characters between quotes over several lines: the third quote in a row is escaped. -/
def escapeLines : Nat → List Char → List Char
  | _, [] => []
  | run, c :: r =>
    if c = '"' then
      if run = 2 then '\\' :: '"' :: escapeLines 0 r else '"' :: escapeLines (run + 1) r
    else if c = '\n' then '\n' :: escapeLines 0 r
    else escapeChar c ++ escapeLines 0 r

/-- The opening of a long form: a text with line feeds starts on a new line. -/
def longOpening (quotes cs : List Char) : List Char :=
  quotes ++ (if cs.contains '\n' then ['\n'] else [])

/-- A string in its form. -/
def stringChars (cs : List Char) : List Char :=
  match formOf cs with
  | .basic => '"' :: escapeLine cs ++ ['"']
  | .literal => '\'' :: cs ++ ['\'']
  | .longBasic => longOpening ['"', '"', '"'] cs ++ escapeLines 0 cs ++ ['"', '"', '"']
  | .longLiteral => longOpening ['\'', '\'', '\''] cs ++ cs ++ ['\'', '\'', '\'']

/-- A string. -/
def renderText (s : String) : List Char := stringChars s.toList

/-- A truth value. -/
def renderBool (b : Bool) : List Char := if b then "true".toList else "false".toList

/-- An array of strings: one item on its line, more items on lines of their own. -/
def renderTexts : List String → List Char
  | [] => ['[', ']']
  | [s] => '[' :: renderText s ++ [']']
  | items =>
    ['[', '\n'] ++ items.flatMap (fun s => "    ".toList ++ renderText s ++ [',', '\n']) ++ [']']

/-- A line of a table. -/
def line (key : String) (value : List Char) : List Char := key.toList ++ " = ".toList ++ value ++ ['\n']

/-- The header of a table. -/
def headerLine (name : String) : List Char := '[' :: name.toList ++ [']', '\n']

end CompanyRegistry.Toml
