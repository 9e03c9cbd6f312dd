import CompanyRegistry.Toml.Scalar

/-!
# TOML documents

A document is read line by line: a header opens a table or one more item of an array of tables, any
other line adds a value to the table that is open. Arrays may run over lines and hold comments, inline
tables may not. Arrays and inline tables nest less than eighty deep.
-/

namespace CompanyRegistry.Toml

/-- How deep arrays and inline tables may nest. -/
def maxDepth : Nat := 80

/-- What follows a word. -/
def dropWord? : List Char → List Char → Option (List Char)
  | [], cs => some cs
  | _ :: _, [] => none
  | w :: ws, c :: cs => if w = c then dropWord? ws cs else none

mutual

/-- A value; `depth` counts the arrays and inline tables around it. -/
def readValue? : Nat → Nat → List Char → Option (Toml × List Char)
  | 0, _, _ => none
  | fuel + 1, depth, cs =>
    match cs with
    | [] => none
    | c :: r =>
      if c = '[' then
        if depth + 1 < maxDepth then readItems? fuel (depth + 1) [] r else none
      else if c = '\x7b' then
        if depth + 1 < maxDepth then
          match skipSpace r with
          | '\x7d' :: r' => some (.table .inline [], r')
          | r' => readPairs? fuel (depth + 1) [] r'
        else none
      else if c = '"' ∨ c = '\'' then
        (readString? cs).map fun (s, r') => (.text (String.ofList s), r')
      else if c = 't' then (dropWord? "true".toList cs).map fun r' => (.bool true, r')
      else if c = 'f' then (dropWord? "false".toList cs).map fun r' => (.bool false, r')
      else
        match readMoment? cs with
        | some r' => some (.moment, r')
        | none =>
          match readFloat? cs with
          | some r' => some (.float, r')
          | none => (readInteger? cs).map fun (i, r') => (.integer i, r')

/-- The items of an array up to its closing bracket; those before are given in reverse. -/
def readItems? : Nat → Nat → List Toml → List Char → Option (Toml × List Char)
  | 0, _, _, _ => none
  | fuel + 1, depth, acc, cs =>
    let cs := skipLines (cs.length + 1) cs
    match cs with
    | ']' :: r => some (.array acc.reverse, r)
    | _ =>
      match readValue? fuel depth cs with
      | none => none
      | some (v, r) =>
        match skipLines (r.length + 1) r with
        | ',' :: r' => readItems? fuel depth (v :: acc) r'
        | ']' :: r' => some (.array (v :: acc).reverse, r')
        | _ => none

/-- The pairs of an inline table up to its closing brace. -/
def readPairs? : Nat → Nat → Entries → List Char → Option (Toml × List Char)
  | 0, _, _, _ => none
  | fuel + 1, depth, entries, cs =>
    match readKeys? (cs.length + 1) cs with
    | some (keys, '=' :: r) =>
      match readValue? fuel depth (skipSpace r) with
      | none => none
      | some (v, r) =>
        match insertAt keys v .header entries with
        | none => none
        | some entries =>
          match skipSpace r with
          | ',' :: r' => readPairs? fuel depth entries r'
          | '\x7d' :: r' => some (.table .inline entries, r')
          | _ => none
    | _ => none

end

/-- What has been read of a document: all its tables, and the path of the open one. -/
structure Draft where
  root : Entries := []
  current : List String := []

/-- Adds a value to the open table. -/
def Draft.add (d : Draft) (keys : List String) (v : Toml) : Option Draft :=
  (within false (insertAt keys v) d.current .header d.root).map fun root => { d with root }

/-- A header of one table, after its opening bracket. -/
def readHeader? (d : Draft) (cs : List Char) : Option (Draft × List Char) := do
  let (keys, r) ← readKeys? (cs.length + 1) cs
  let r ← readMark? ']' r
  return (⟨← openTable keys d.root, keys⟩, ← readLineEnd? r)

/-- A header of an item of an array of tables, after its opening brackets. -/
def readItemHeader? (d : Draft) (cs : List Char) : Option (Draft × List Char) := do
  let (keys, r) ← readKeys? (cs.length + 1) cs
  let r ← readMark? ']' r
  let r ← readMark? ']' r
  return (⟨← openItem keys d.root, keys⟩, ← readLineEnd? r)

/-- A line with a key and a value. -/
def readPair? (d : Draft) (cs : List Char) : Option (Draft × List Char) := do
  let (keys, r) ← readKeys? (cs.length + 1) cs
  let r ← readMark? '=' r
  let r := skipSpace r
  let (v, r) ← readValue? (2 * r.length + 2) 0 r
  return (← d.add keys v, ← readLineEnd? r)

/-- The lines of a document; `fuel` bounds their number. -/
def readLines? : Nat → Draft → List Char → Option Draft
  | 0, _, _ => none
  | fuel + 1, d, cs =>
    match skipSpace cs with
    | [] => some d
    | '[' :: '[' :: r => do
      let (d, rest) ← readItemHeader? d r
      readLines? fuel d rest
    | '[' :: r => do
      let (d, rest) ← readHeader? d r
      readLines? fuel d rest
    | c :: r =>
      if c = '#' ∨ c = '\n' ∨ c = '\r' then do
        let rest ← readLineEnd? (c :: r)
        readLines? fuel d rest
      else do
        let (d, rest) ← readPair? d (c :: r)
        readLines? fuel d rest

/-- A byte order mark at the start is passed over. -/
def skipMark : List Char → List Char
  | '\uFEFF' :: r => r
  | cs => cs

/-- Reads a document: the entries of its outermost table. -/
def parse? (s : String) : Option Entries :=
  let cs := skipMark s.toList
  (readLines? (cs.length + 1) {} cs).map (·.root)

end CompanyRegistry.Toml
