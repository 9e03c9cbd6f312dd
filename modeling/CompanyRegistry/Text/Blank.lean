/-!
# Blank characters and trimming

A character is *blank* when Unicode gives it the property `White_Space`: 25 characters, among them
the next line, the no-break space and the ideographic space, but neither the zero-width space nor
the byte order mark. Names, identifiers, tokens and template fields are all trimmed by this one rule.
-/

namespace CompanyRegistry.Text

/-- The characters with the Unicode property `White_Space`. -/
def isBlank (c : Char) : Bool :=
  let n := c.toNat
  (0x09 ≤ n && n ≤ 0x0D) || n == 0x20 || n == 0x85 || n == 0xA0 || n == 0x1680 ||
  (0x2000 ≤ n && n ≤ 0x200A) || n == 0x2028 || n == 0x2029 || n == 0x202F || n == 0x205F ||
  n == 0x3000

/-- Leading blanks removed. -/
def trimLeft (cs : List Char) : List Char := cs.dropWhile isBlank

/-- Trailing blanks removed. -/
def trimRight (cs : List Char) : List Char := (cs.reverse.dropWhile isBlank).reverse

/-- Blanks removed at both ends, and nowhere else. -/
def trim (cs : List Char) : List Char := trimRight (trimLeft cs)

/-- `trim` on a string. -/
def trimmed (s : String) : String := String.ofList (trim s.toList)

/-- A text is blank when nothing is left of it after trimming. -/
def allBlank (s : String) : Bool := s.toList.all isBlank

end CompanyRegistry.Text
