import CompanyRegistry.Text.Bytes

/-!
# Percent encoding

In an address an octet may be written as a percent sign and two hexadecimal digits; a percent sign
without them stands for itself. In a query a plus sign is a space as well, and the query is a sequence of
names with values, `&` between them and `=` within. What is not UTF-8 after decoding is replaced.
-/

namespace CompanyRegistry.Http

/-- The value of an octet that is an ASCII hexadecimal digit. -/
def digitValue? (b : UInt8) : Option Nat := Bytes.hexValue? (Char.ofNat b.toNat)

/-- The octets that an encoded text stands for. -/
def percentDecode : Bytes → Bytes
  | [] => []
  | [x] => [x]
  | [x, y] => [x, y]
  | x :: y :: z :: r =>
    if x = 0x25 then
      match digitValue? y, digitValue? z with
      | some high, some low => UInt8.ofNat (high * 16 + low) :: percentDecode r
      | _, _ => x :: percentDecode (y :: z :: r)
    else x :: percentDecode (y :: z :: r)
termination_by s => s.length

/-- A plus sign read as a space. -/
def plusToSpace (b : UInt8) : UInt8 := if b = 0x2B then 0x20 else b

/-- The text of a name or a value in a query. -/
def decodeQueryText (cs : List Char) : String :=
  Bytes.lossy (percentDecode ((Bytes.utf8 (String.ofList cs)).map plusToSpace))

/-- What stands between the marks of a text. -/
def pieces (mark : Char) : List Char → List (List Char)
  | [] => [[]]
  | c :: r =>
    if c = mark then [] :: pieces mark r
    else match pieces mark r with
      | [] => [[c]]
      | p :: ps => (c :: p) :: ps

/-- A piece of a query as name and value. -/
def queryPair (cs : List Char) : String × String :=
  let (name, rest) := cs.span (· ≠ '=')
  (decodeQueryText name, decodeQueryText (rest.drop 1))

/-- The names and values of a query, in order; empty pieces are passed over. -/
def queryPairs (query : String) : List (String × String) :=
  ((pieces '&' query.toList).filter (· ≠ [])).map queryPair

end CompanyRegistry.Http
