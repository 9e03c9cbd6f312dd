import CompanyRegistry.Text.Decimal

/-!
# JSON values and their texts

A value as it is written (`Json.render`), and as it is found in a text that may break off: an array
whose text breaks off ends in `broken`, an object whose text breaks off ends in `torn`. So a reader
never fails; whoever looks at a value from left to right meets the defect where it stands, and meets a
wrong kind of value before it if that comes first.

A number is kept only as far as this library uses it: whole numbers exactly, all others not at all.
-/

namespace CompanyRegistry

/-- A number of a JSON text. -/
inductive Json.Number where
  /-- Written without fraction, exponent and negative zero, and of 64 bits. -/
  | whole (i : Int)
  | fractional
  /-- Too large for a floating-point number. -/
  | unbounded
  deriving DecidableEq, Repr

mutual

/-- A JSON value, possibly of a text that breaks off. -/
inductive Json where
  | null
  | bool (b : Bool)
  | number (n : Json.Number)
  | text (s : String)
  /-- A string whose escapes or octets spell no text. -/
  | garbled
  | array (items : List Json)
  | object (members : List Json.Member)
  /-- Here the text is not JSON. -/
  | broken

/-- A member of an object; a name that spells no text is `none`. -/
inductive Json.Member where
  | entry (name : Option String) (value : Json)
  /-- Here the object's text breaks off. -/
  | torn

end

namespace Json

/-- A whole number as a value. -/
def whole (i : Int) : Json := .number (.whole i)

/-- An object with these members, in this order. -/
def record (fields : List (String × Json)) : Json :=
  .object (fields.map fun (n, v) => .entry (some n) v)

mutual

/-- Whether the text of the value does not break off. -/
def complete : Json → Bool
  | .broken => false
  | .array items => completeItems items
  | .object members => completeMembers members
  | _ => true

/-- `complete` for the items of an array. -/
def completeItems : List Json → Bool
  | [] => true
  | v :: r => complete v && completeItems r

/-- `complete` for the members of an object. -/
def completeMembers : List Member → Bool
  | [] => true
  | .entry _ v :: r => complete v && completeMembers r
  | .torn :: _ => false

end

/-- The escape of a control character: `\u00` and two lowercase hexadecimal digits. -/
def unicodeEscape (c : Char) : List Char :=
  ['\\', 'u', '0', '0', Bytes.hexDigit (c.toNat / 16), Bytes.hexDigit (c.toNat % 16)]

/-- A character inside a string: only the quote, the backslash and controls below U+0020 are escaped. -/
def escape (c : Char) : List Char :=
  if c = '"' then ['\\', '"']
  else if c = '\\' then ['\\', '\\']
  else if c = '\x08' then ['\\', 'b']
  else if c = '\x0c' then ['\\', 'f']
  else if c = '\n' then ['\\', 'n']
  else if c = '\r' then ['\\', 'r']
  else if c = '\t' then ['\\', 't']
  else if c.toNat < 0x20 then unicodeEscape c
  else [c]

/-- A string between quotes. -/
def quoted (s : String) : List Char := '"' :: s.toList.flatMap escape ++ ['"']

mutual

/-- The compact text of a value: members in their order, no blanks. -/
def renderChars : Json → List Char
  | .null => ['n', 'u', 'l', 'l']
  | .bool true => ['t', 'r', 'u', 'e']
  | .bool false => ['f', 'a', 'l', 's', 'e']
  | .number (.whole i) => Decimal.text i
  | .text s => quoted s
  | .array items => '[' :: renderItems items ++ [']']
  | .object members => '\x7b' :: renderMembers members ++ ['\x7d']
  | _ => []

/-- The items of an array, with commas between. -/
def renderItems : List Json → List Char
  | [] => []
  | [v] => renderChars v
  | v :: r => renderChars v ++ ',' :: renderItems r

/-- The members of an object, with commas between. -/
def renderMembers : List Member → List Char
  | [] => []
  | [m] => renderMember m
  | m :: r => renderMember m ++ ',' :: renderMembers r

/-- A member: its quoted name, a colon, its value. -/
def renderMember : Member → List Char
  | .entry (some n) v => quoted n ++ ':' :: renderChars v
  | _ => []

end

/-- The compact text of a value. -/
def render (v : Json) : String := String.ofList (renderChars v)

end Json

end CompanyRegistry
