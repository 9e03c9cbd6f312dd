import CompanyRegistry.Text.Decimal

/-!
# What is logged

A filter says up to which level messages are kept, for each part of the program that it names and for all
the others. It is written as directives between commas, and a text that is none means `info`. Printed,
the most specific directive comes first, which is also the order in which they are tried.
-/

namespace CompanyRegistry.Log

/-- How much is kept, from nothing to everything. -/
inductive Level where
  | off
  | error
  | warn
  | info
  | debug
  | trace
  deriving DecidableEq

/-- The level's name. -/
def Level.label : Level → String
  | .off => "off"
  | .error => "error"
  | .warn => "warn"
  | .info => "info"
  | .debug => "debug"
  | .trace => "trace"

/-- All levels, each at the place of its number. -/
def Level.all : List Level := [.off, .error, .warn, .info, .debug, .trace]

/-- The level of a name in letters of either case. -/
def Level.ofName? (s : String) : Option Level := Level.all.find? fun l => l.label == s.toLower

/-- The level of a name or of a number's one digit. -/
def Level.ofText? (s : String) : Option Level :=
  Level.ofName? s <|> match s.toList with
    | [c] => if Decimal.isDigit c then Level.all[Decimal.ofDigits [c]]? else none
    | _ => none

/-- The level of a name or of a number however written. -/
def Level.ofLooseText? (s : String) : Option Level :=
  Level.ofName? s <|> ((Decimal.plain? 5 s.toList).bind fun n => Level.all[n]?)

/-- Up to which level messages are kept, of the part named or of all that no other directive names. -/
structure Directive where
  target : Option String
  level : Level
  deriving DecidableEq

/-- The scripts whose letters names are written in, by their first and last characters. -/
def scripts : List (Nat × Nat) :=
  [(0xC0, 0xD6), (0xD8, 0xF6), (0xF8, 0x2C1), (0x370, 0x373), (0x376, 0x377), (0x37B, 0x37D),
   (0x388, 0x3F5), (0x3F7, 0x481), (0x48A, 0x52F), (0x531, 0x556), (0x561, 0x587), (0x5D0, 0x5EA),
   (0x620, 0x669), (0x900, 0x963), (0xE01, 0xE3A), (0x10A0, 0x10C5), (0x10D0, 0x10FA),
   (0x1E00, 0x1FBC), (0x3041, 0x3096), (0x30A1, 0x30FA), (0x3400, 0x4DBF), (0x4E00, 0x9FFF),
   (0xAC00, 0xD7A3)]

/-- A character of a part's name. -/
def isNameChar (c : Char) : Bool :=
  c.isAlphanum || c == '_' || c == ':' || c == '-' ||
    scripts.any fun (first, last) => decide (first ≤ c.toNat ∧ c.toNat ≤ last)

/-- Reads a directive: a level, or a name with a level behind `=`, everything where none is given. A
name that is a level names no part. -/
def Directive.parse? (s : String) : Option Directive :=
  match Level.ofText? s with
  | some level => some ⟨none, level⟩
  | none =>
    let name := s.toList.takeWhile isNameChar
    let given : Option Level := match s.toList.drop name.length with
      | [] | ['='] => some .trace
      | '=' :: level => Level.ofText? (String.ofList level)
      | _ => none
    if name = [] then none
    else given.map fun level =>
      let target := String.ofList name
      ⟨if (Level.ofLooseText? target).isSome then none else some target, level⟩

/-- The length a directive is ordered by, nothing for the one of no name. -/
def Directive.weight (d : Directive) : Nat :=
  match d.target with
  | none => 0
  | some t => t.utf8ByteSize + 1

/-- Whether a directive is tried before another: longer names first, and among those of one length the
greater. -/
def Directive.precedes (d e : Directive) : Bool :=
  decide (e.weight < d.weight) || (d.weight == e.weight && decide (e.target.getD "" < d.target.getD ""))

/-- Adds a directive in its place, instead of one of the same name. -/
def insert (d : Directive) : List Directive → List Directive
  | [] => [d]
  | e :: r =>
    if d.target = e.target then d :: r
    else if d.precedes e then d :: e :: r
    else e :: insert d r

/-- The directives of a text, in their order; without any, errors are kept. -/
def parse? (s : String) : Option (List Directive) := do
  let ds ← ((s.splitOn ",").filter (· ≠ "")).mapM Directive.parse?
  return if ds = [] then [⟨none, .error⟩] else ds.foldl (fun acc d => insert d acc) []

/-- What is kept where the setting is no filter. -/
def fallback : List Directive := [⟨none, .info⟩]

/-- The filter of a setting. -/
def filter (setting : String) : List Directive := (parse? setting).getD fallback

/-- The text of a directive. -/
def Directive.render (d : Directive) : String :=
  match d.target with
  | none => d.level.label
  | some t => t ++ "=" ++ d.level.label

/-- The text of a filter. -/
def render (ds : List Directive) : String := ",".intercalate (ds.map Directive.render)

end CompanyRegistry.Log
