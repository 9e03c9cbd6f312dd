import CompanyRegistry.Json.Reader

/-!
# Typed reading of JSON values

A decoder takes a value from left to right and fails at the first defect: `malformed` where the text
is not JSON, `mismatched` where it is JSON of another shape.

A record is read from an object whose members may come in any order, or from an array with its fields
in their declared order. Unknown members are passed over, whatever they hold, as long as they are JSON;
a known name that comes twice is a mismatch at its second place, before its value is looked at.
-/

namespace CompanyRegistry.Json

/-- Why a value cannot be read. -/
inductive Fault where
  /-- The text is not JSON here. -/
  | malformed
  /-- The text is JSON, of another shape. -/
  | mismatched
  deriving DecidableEq, Repr

/-- Reads a value as an `α`. -/
abbrev Decoder (α : Type) := Json → Except Fault α

/-- The fault of meeting this value where another kind is due: a scalar is read to its end before
its kind is judged. -/
def unexpected : Json → Fault
  | .broken | .garbled | .number .unbounded => .malformed
  | _ => .mismatched

/-- A string. -/
def asText : Decoder String
  | .text s => .ok s
  | v => .error (unexpected v)

/-- A truth value. -/
def asBool : Decoder Bool
  | .bool b => .ok b
  | v => .error (unexpected v)

/-- A whole number between two bounds. -/
def asWhole (least most : Int) : Decoder Int
  | .number (.whole i) => if least ≤ i ∧ i ≤ most then .ok i else .error .mismatched
  | v => .error (unexpected v)

/-- A natural number not above `most`. -/
def asNat (most : Nat) : Decoder Nat := fun v => (asWhole 0 most v).map Int.toNat

/-- A signed number of 64 bits. -/
def asInt64 : Decoder Int := asWhole (-Int.pow 2 63) (Int.pow 2 63 - 1)

/-- A signed number of 32 bits. -/
def asInt32 : Decoder Int := asWhole (-Int.pow 2 31) (Int.pow 2 31 - 1)

/-- `null` or a value. -/
def asOption (decode : Decoder α) : Decoder (Option α)
  | .null => .ok none
  | v => (decode v).map some

/-- A string that stands for a value; another string is a mismatch. -/
def asParsed (parse : String → Option α) : Decoder α := fun v => do
  match parse (← asText v) with
  | some a => .ok a
  | none => .error .mismatched

/-- The decoded items of an array, the first fault winning. -/
def decodeItems (decode : Decoder α) : List Json → Except Fault (List α)
  | [] => .ok []
  | v :: r => do
    let a ← decode v
    return a :: (← decodeItems decode r)

/-- An array whose items are all alike. -/
def asList (decode : Decoder α) : Decoder (List α)
  | .array items => decodeItems decode items
  | v => .error (unexpected v)

/-- One of several names: the bare string, or an object whose only member has that name and the
value `null`. -/
def asVariant (parse : String → Option α) : Decoder α
  | .text s => match parse s with
    | some a => .ok a
    | none => .error .mismatched
  | .object [] => .error .malformed
  | .object (.torn :: _) => .error .malformed
  | .object (.entry none _ :: _) => .error .malformed
  | .object (.entry (some n) v :: r) =>
    match parse n, v, r with
    | none, _, _ => .error .mismatched
    | some a, .null, [] => .ok a
    | some _, .null, _ => .error .malformed
    | some _, v, _ => .error (unexpected v)
  | _ => .error .malformed

/-- A field of a record: its name, and a check that its value can be read. -/
structure Field where
  name : String
  check : Json → Except Fault Unit

/-- The field of this name whose value is read by `decode`. -/
def Field.of (name : String) (decode : Decoder α) : Field :=
  ⟨name, fun v => (decode v).map fun _ => ()⟩

/-- The values of a record's fields, by name. -/
abbrev Found := List (String × Json)

/-- The known members of an object, in the order of the text. -/
def findMembers (fields : List Field) (found : Found) : List Member → Except Fault Found
  | [] => .ok found
  | .torn :: _ => .error .malformed
  | .entry none _ :: _ => .error .malformed
  | .entry (some n) v :: r =>
    match fields.find? (·.name == n) with
    | none => if v.complete then findMembers fields found r else .error .malformed
    | some field =>
      if (found.lookup n).isSome then .error .mismatched
      else match field.check v with
        | .error e => .error e
        | .ok _ => findMembers fields ((n, v) :: found) r

/-- The items of an array as the fields of a record, in their declared order. Too many are no
record's text. -/
def findItems : List Field → List Json → Except Fault Found
  | _, [] => .ok []
  | [], _ :: _ => .error .malformed
  | f :: fs, v :: r =>
    match f.check v with
    | .error e => .error e
    | .ok _ => (findItems fs r).map ((f.name, v) :: ·)

/-- The fields of a record that a value gives. -/
def find (fields : List Field) : Decoder Found
  | .object members => findMembers fields [] members
  | .array items => findItems fields items
  | v => .error (unexpected v)

/-- A field that must be there. -/
def Found.required (found : Found) (name : String) (decode : Decoder α) : Except Fault α :=
  match found.lookup name with
  | some v => decode v
  | none => .error .mismatched

/-- A field with a default. -/
def Found.withDefault (found : Found) (name : String) (decode : Decoder α) (default : α) :
    Except Fault α :=
  match found.lookup name with
  | some v => decode v
  | none => .ok default

/-- Reads a whole text: one value, then blanks only. -/
def decodeText (decode : Decoder α) (s : Bytes) : Except Fault α := do
  let (v, rest) := read s
  let a ← decode v
  if onlySpace rest then .ok a else .error .malformed

/-- Reads the value at the start of a text and leaves the rest unread. -/
def decodeStart (decode : Decoder α) (s : Bytes) : Except Fault α := decode (read s).1

end CompanyRegistry.Json
