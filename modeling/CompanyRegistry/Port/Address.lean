import CompanyRegistry.Text.Decimal

/-!
# Addresses and names of hosts

What a server is told to listen on is a host and a port behind the last colon. What a client asks for
under encryption is a name of labels between dots or an address in digits.
-/

namespace CompanyRegistry.Port

/-! ### Addresses in digits -/

/-- A number below 256 in at most three digits, without needless zeros. -/
def octet? (cs : List Char) : Option Nat :=
  if cs = [] ∨ 3 < cs.length ∨ (cs.head? = some '0' ∧ 1 < cs.length) ∨ !cs.all Decimal.isDigit then none
  else
    let n := Decimal.ofDigits cs
    if n < 256 then some n else none

/-- The four numbers of an address between dots. -/
def ipv4? (s : String) : Option (List Nat) := do
  let parts ← (s.splitOn ".").mapM fun p => octet? p.toList
  guard (parts.length = 4)
  return parts

/-- One to four hexadecimal digits. -/
def isGroup (s : String) : Bool :=
  let cs := s.toList
  cs != [] && decide (cs.length ≤ 4) &&
    cs.all fun c => Decimal.isDigit c || ('a' ≤ c && c ≤ 'f') || ('A' ≤ c && c ≤ 'F')

/-- The number of 16-bit groups that parts between colons spell; the last part may be four numbers
between dots, which are two groups. -/
def groups? : List String → Option Nat
  | [] => some 0
  | [last] => if isGroup last then some 1 else (ipv4? last).map fun _ => 2
  | part :: rest => if isGroup part then (groups? rest).map (· + 1) else none

/-- The groups of a text that may be empty. -/
def groupsOf? (s : String) : Option Nat := if s = "" then some 0 else groups? (s.splitOn ":")

/-- Whether a text is an address of eight groups, some of which a double colon may stand for. -/
def isIpv6 (s : String) : Bool :=
  match s.splitOn "::" with
  | [all] => groupsOf? all == some 8
  | [head, tail] =>
    match (if (ipv4? ((head.splitOn ":").getLastD "")).isSome then none else groupsOf? head),
        groupsOf? tail with
    | some n, some m => decide (n + m ≤ 7)
    | _, _ => false
  | _ => false

/-! ### Names -/

/-- A character of a label. -/
def isLabelChar (c : Char) : Bool := c.isAlphanum || c == '-' || c == '_'

/-- Whether a text is a label: up to 63 characters, hyphens only inside. -/
def isLabel (cs : List Char) : Bool :=
  cs != [] && decide (cs.length ≤ 63) && cs.all isLabelChar && cs.head? != some '-' &&
    cs.getLast? != some '-'

/-- Whether a text is a name: labels, a dot behind the last one allowed, and that one not all digits. -/
def isDnsName (s : String) : Bool :=
  let labels := (s.splitOn ".").map String.toList
  let labels := if 1 < labels.length ∧ labels.getLast? = some [] then labels.dropLast else labels
  decide (s.length ≤ 253) && labels.all isLabel && !((labels.getLastD []).all Decimal.isDigit)

/-- Whether a host can be asked for by this text. -/
def isServerName (s : String) : Bool := isDnsName s || (ipv4? s).isSome || isIpv6 s

/-! ### What is listened on -/

/-- Why an address cannot be listened on. -/
inductive AddressDefect where
  | noPort
  | port
  | foreign
  deriving DecidableEq

/-- The defect as it is reported. -/
def AddressDefect.message : AddressDefect → String
  | .noPort => "invalid socket address"
  | .port => "invalid port value"
  | .foreign => "Cannot assign requested address (os error 99)"

/-- Whether an address in digits is of this machine, of all of its networks, or of a group. -/
def isOwn : List Nat → Bool
  | a :: rest => a == 127 || (224 ≤ a && a ≤ 239) || (a == 0 && rest.all (· == 0)) ||
    (a == 255 && rest.all (· == 255))
  | [] => false

/-- Checks an address to listen on: a port behind the last colon, and before it no address in digits of
another machine. -/
def checkAddress (s : String) : Except AddressDefect Unit :=
  let cs := s.toList
  if ':' ∉ cs then .error .noPort
  else
    let port := (cs.reverse.takeWhile (· ≠ ':')).reverse
    if (Decimal.plain? 65535 port).isNone then .error .port
    else
      match ipv4? (String.ofList (cs.take (cs.length - port.length - 1))) with
      | some parts => if isOwn parts then .ok () else .error .foreign
      | none => .ok ()

end CompanyRegistry.Port
