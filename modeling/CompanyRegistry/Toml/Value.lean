import CompanyRegistry.Text.Decimal

/-!
# TOML values and tables

A document is a table. Tables remember how they came to be, because that decides what may still be added
to them: a table of a header is complete when the next header comes, a table implied by the header of a
part of it may still get its own header, a table made by dotted keys may get more of those, and an inline
table nothing. `Toml.within` finds the table at a path, making the missing ones, and refuses what these
rules forbid.
-/

namespace CompanyRegistry

/-- How a table came to be. -/
inductive Toml.Origin where
  | header
  | implied
  | dotted
  | inline
  deriving DecidableEq, Repr

/-- A TOML value. Fractions and moments are known by their kind alone. -/
inductive Toml where
  | text (s : String)
  | integer (i : Int)
  | float
  | bool (b : Bool)
  | moment
  | array (items : List Toml)
  | table (origin : Toml.Origin) (entries : List (String × Toml))
  | tables (items : List (List (String × Toml)))

namespace Toml

/-- The entries of a table. -/
abbrev Entries := List (String × Toml)

/-- Changes the entry of a key, or adds one at the end; `f` may refuse. -/
def alter (key : String) (f : Option Toml → Option Toml) : Entries → Option Entries
  | [] => (f none).map fun v => [(key, v)]
  | (k, v) :: r =>
    if k = key then (f (some v)).map fun v' => (k, v') :: r
    else (alter key f r).map ((k, v) :: ·)

/-- Changes the last of several tables. -/
def alterLast (f : Entries → Option Entries) : List Entries → Option (List Entries)
  | [] => none
  | [t] => (f t).map ([·])
  | t :: r => (alterLast f r).map (t :: ·)

/-- Changes the table at a path below another. A path of dotted keys passes through no table of a
header; no path passes through an inline table or another value. -/
def within (dotted : Bool) (f : Origin → Entries → Option Entries) :
    List String → Origin → Entries → Option Entries
  | [], origin, entries => f origin entries
  | key :: path, _, entries =>
    alter key (fun
      | none =>
        let made : Origin := if dotted then .dotted else .implied
        (within dotted f path made []).map (.table made)
      | some (.table origin inner) =>
        if origin = .inline ∨ (dotted ∧ origin = .header) then none
        else (within dotted f path origin inner).map (.table origin)
      | some (.tables items) => (alterLast (within dotted f path .header) items).map .tables
      | some _ => none) entries

/-- Adds a key that is not there yet. -/
def insertNew (key : String) (v : Toml) : Entries → Option Entries :=
  alter key fun
    | none => some v
    | some _ => none

/-- Adds a value at dotted keys below a table. The table it lands in must be one that dotted keys made,
or the starting one where the key is single. -/
def insertAt (keys : List String) (v : Toml) (origin : Origin) (entries : Entries) : Option Entries :=
  match keys.reverse with
  | [] => none
  | last :: before =>
    let path := before.reverse
    within true (fun o es =>
      if (o == .dotted) == path.isEmpty then none else insertNew last v es) path origin entries

/-- Gives a table its header. -/
def openTable (keys : List String) (root : Entries) : Option Entries :=
  match keys.reverse with
  | [] => none
  | last :: before =>
    within false (fun _ => alter last fun
      | none => some (.table .header [])
      | some (.table .implied es) => some (.table .header es)
      | some _ => none) before.reverse .header root

/-- Starts one more table of an array of tables. -/
def openItem (keys : List String) (root : Entries) : Option Entries :=
  match keys.reverse with
  | [] => none
  | last :: before =>
    within false (fun _ => alter last fun
      | none => some (.tables [[]])
      | some (.tables items) => some (.tables (items ++ [[]]))
      | some _ => none) before.reverse .header root

end Toml

end CompanyRegistry
