import CompanyRegistry.Text.Bytes
import CompanyRegistry.Text.Graphic

/-!
# Texts quoted for inspection

Settings are shown to their owner with texts between double quotes. Quote and backslash are escaped, so
are tab, line ends and NUL by a letter, and every other character without a graphic by its number in
braces, in as few hexadecimal digits as it takes.
-/

namespace CompanyRegistry.Text

/-- A character inside quotes. -/
def showChar (c : Char) : List Char :=
  if c = '\x00' then ['\\', '0']
  else if c = '\t' then ['\\', 't']
  else if c = '\r' then ['\\', 'r']
  else if c = '\n' then ['\\', 'n']
  else if c = '"' then ['\\', '"']
  else if c = '\\' then ['\\', '\\']
  else if isGraphic c then [c]
  else ['\\', 'u', '\x7b'] ++ Nat.toDigits 16 c.toNat ++ ['\x7d']

/-- A text between quotes. -/
def shown (s : String) : String := String.ofList ('"' :: s.toList.flatMap showChar ++ ['"'])

end CompanyRegistry.Text
