import CompanyRegistry.Text.Bytes

/-!
# Decimal numbers in texts

Numbers are written without sign and leading zeros, a minus before negative ones. A *plain* number in
a stored text or a query is one or more ASCII digits, leading zeros allowed, after at most one plus
sign; it must fit the width that its place gives it.
-/

namespace CompanyRegistry.Decimal

/-- The decimal digits of a number. -/
def digits (n : Nat) : List Char := Nat.toDigits 10 n

/-- The decimal text of an integer. -/
def text (i : Int) : List Char :=
  match i with
  | .ofNat n => digits n
  | .negSucc n => '-' :: digits (n + 1)

/-- An ASCII decimal digit. -/
def isDigit (c : Char) : Bool := '0' ≤ c && c ≤ '9'

/-- The number that decimal digits spell. -/
def ofDigits (cs : List Char) : Nat := Nat.ofDigitChars 10 cs 0

/-- A plain number not above `most`. -/
def plain? (most : Nat) (cs : List Char) : Option Nat :=
  let body := match cs with
    | '+' :: r => r
    | _ => cs
  if body ≠ [] ∧ body.all isDigit ∧ ofDigits body ≤ most then some (ofDigits body) else none

/-- Digits of a number below `10 ^ width`, filled with zeros on the left. -/
def padded (width n : Nat) : List Char :=
  let ds := digits n
  List.replicate (width - ds.length) '0' ++ ds

/-- The greatest number of 32 bits. -/
def maxU32 : Nat := Nat.pow 2 32 - 1

/-- The greatest number of 64 bits. -/
def maxU64 : Nat := Nat.pow 2 64 - 1

end CompanyRegistry.Decimal
