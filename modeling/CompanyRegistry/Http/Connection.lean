import CompanyRegistry.Http.Message
import CompanyRegistry.Text.Decimal

/-!
# Requests and responses as octets

On a connection of version 1, requests follow each other: a line, headers, an empty line, and a body whose
length the headers tell, or which comes in chunks that tell their own. `readRequest` reads the first
request of what has arrived and says when that is not a whole one; `Response.octets` writes an answer.
-/

namespace CompanyRegistry.Http

/-- What the octets that have arrived are. -/
inductive Reading (α : Type) where
  | more
  | malformed
  | whole (a : α) (rest : Bytes)

/-! ### Lines -/

/-- A line that has ended, its parts collected in reverse, without the carriage return at its end. -/
def finished : Bytes → Bytes
  | 0x0D :: r => r.reverse
  | r => r.reverse

/-- The lines before the first empty one, and what follows that. Empty lines at the start are skipped.
`line` and `lines` are those read so far, in reverse. -/
def readLines (line : Bytes) (lines : List Bytes) : Bytes → Option (List Bytes × Bytes)
  | [] => none
  | b :: r =>
    if b ≠ 0x0A then readLines (b :: line) lines r
    else if finished line ≠ [] then readLines [] (finished line :: lines) r
    else if lines = [] then readLines [] [] r
    else some (lines.reverse, r)

/-- The octets before the first one of a kind, and those behind it. -/
def cut? (mark : UInt8) (b : Bytes) : Option (Bytes × Bytes) :=
  match b.dropWhile (· ≠ mark) with
  | _ :: r => some (b.takeWhile (· ≠ mark), r)
  | [] => none

/-- Octets without the spaces and tabs around them. -/
def trim (b : Bytes) : Bytes :=
  let blank (x : UInt8) : Bool := x == 0x20 || x == 0x09
  ((b.dropWhile blank).reverse.dropWhile blank).reverse

/-! ### The head -/

/-- The characters that names are made of besides letters and digits. -/
def nameMarks : Bytes := Bytes.utf8 "!#$%&'*+-.^_|~" ++ [0x60]

/-- Whether octets are a name. -/
def isName (b : Bytes) : Bool :=
  b != [] && b.all fun x => (Char.ofNat x.toNat).isAlphanum || nameMarks.contains x

/-- A header of a line. -/
def header? (line : Bytes) : Option (String × Bytes) := do
  let (name, value) ← cut? 0x3A line
  let value := trim value
  guard (isName name && isHeaderValue value)
  return (Bytes.latin1 name, value)

/-- The version of a first line's last word. -/
def Version.ofText? (b : Bytes) : Option Version :=
  if b = Bytes.utf8 "HTTP/1.1" then some .v11
  else if b = Bytes.utf8 "HTTP/1.0" then some .v10
  else none

/-- A request without its body. -/
def head? : List Bytes → Option Request
  | [] => none
  | first :: lines => do
    let (method, r) ← cut? 0x20 first
    let (target, r) ← cut? 0x20 r
    guard (isName method && target != [] && target.all fun b => 0x21 ≤ b && b < 0x7F)
    let version ← Version.ofText? r
    let (path, query) := splitTarget (Bytes.latin1 target)
    return {
      version
      method := Bytes.latin1 method
      path, query
      headers := .ofList (← lines.mapM header?) }

/-! ### The body -/

/-- A number in hexadecimal digits, from the value read so far. -/
def hexNumber? : Nat → List Char → Option Nat
  | n, [] => some n
  | n, c :: r => do hexNumber? (n * 16 + (← Bytes.hexValue? c)) r

/-- The size that a chunk's first line tells; what follows a semicolon does not matter. -/
def chunkSize? (line : Bytes) : Option Nat :=
  match (Bytes.latin1 (trim (line.takeWhile (· ≠ 0x3B)))).toList with
  | [] => none
  | digits => hexNumber? 0 digits

/-- The octets of chunks up to an empty one and the lines behind that, of which the first empty one is the
last: the empty chunk's line counts as one before it. Every chunk takes at least a line, so there are not
more of them than octets. -/
def readChunks : Nat → Bytes → Reading Bytes
  | 0, _ => .more
  | most + 1, b =>
    match cut? 0x0A b with
    | none => .more
    | some (line, r) =>
      match chunkSize? (finished line.reverse) with
      | none => .malformed
      | some 0 =>
        match readLines [] [[]] r with
        | none => .more
        | some (_, rest) => .whole [] rest
      | some size =>
        if r.length < size + 2 then .more
        else match readChunks most (r.drop (size + 2)) with
          | .whole more rest => .whole (r.take size ++ more) rest
          | other => other

/-- Whether a body comes in chunks. -/
def isChunked (h : Headers) : Bool :=
  (h.values "transfer-encoding").any fun v => v.map Bytes.lower = Bytes.utf8 "chunked"

/-- The length of a body that does not come in chunks; several lengths must be the same. -/
def bodyLength? (h : Headers) : Option Nat :=
  match h.values "content-length" with
  | [] => some 0
  | first :: others =>
    if others.all (· = first) && first.all Bytes.isDigit then
      Decimal.plain? Decimal.maxU64 (Bytes.latin1 first).toList
    else none

/-- Reads the body that belongs to a head. -/
def readBody (h : Headers) (b : Bytes) : Reading Bytes :=
  if isChunked h then readChunks b.length b
  else match bodyLength? h with
    | none => .malformed
    | some n => if b.length < n then .more else .whole (b.take n) (b.drop n)

/-- Reads the first request. -/
def readRequest (b : Bytes) : Reading Request :=
  match readLines [] [] b with
  | none => .more
  | some (lines, r) =>
    match head? lines with
    | none => .malformed
    | some q =>
      match readBody q.headers r with
      | .more => .more
      | .malformed => .malformed
      | .whole body rest => .whole { q with body } rest

/-- Whether another request may follow: from version 1.1 on unless the client says otherwise. -/
def Request.keepsOpen (q : Request) : Bool :=
  let said := (q.headers.first? "connection").map fun v => v.map Bytes.lower
  if q.version = .v10 then said = some (Bytes.utf8 "keep-alive") else said ≠ some (Bytes.utf8 "close")

/-! ### Responses -/

/-- The words that go with a status. -/
def reason : Nat → String
  | 200 => "OK"
  | 307 => "Temporary Redirect"
  | 400 => "Bad Request"
  | 401 => "Unauthorized"
  | 403 => "Forbidden"
  | 404 => "Not Found"
  | 405 => "Method Not Allowed"
  | 409 => "Conflict"
  | 413 => "Payload Too Large"
  | 415 => "Unsupported Media Type"
  | 429 => "Too Many Requests"
  | 500 => "Internal Server Error"
  | 501 => "Not Implemented"
  | 503 => "Service Unavailable"
  | 504 => "Gateway Timeout"
  | _ => "Status"

/-- The end of a line. -/
def lineEnd : Bytes := [0x0D, 0x0A]

/-- The octets of a response, with the length of its body. -/
def Response.octets (r : Response) : Bytes :=
  let headers := r.headers.entries.filter (·.1 != "content-length") ++
    [("content-length", Bytes.utf8 (toString r.body.length))]
  Bytes.utf8 ("HTTP/1.1 " ++ toString r.status ++ " " ++ reason r.status) ++ lineEnd ++
    headers.flatMap (fun (name, value) => Bytes.utf8 (name ++ ": ") ++ value ++ lineEnd) ++
    lineEnd ++ r.body

end CompanyRegistry.Http
