import CompanyRegistry.Company.Basic

/-!
# Questions to the register

Which companies a list shall hold, and which page of it. A limit of zero asks for the usual page, and
no page is longer than a thousand.
-/

namespace CompanyRegistry.Company

/-- A question to the register: an absent condition holds for every company. -/
structure Filters where
  name : Option String := none
  kind : Option Kind := none
  registered : Option Bool := none
  limit : UInt32 := 0
  offset : UInt32 := 0
  deriving DecidableEq

namespace Filters

/-- The page size where none is asked for. -/
def usualLimit : Nat := 50

/-- The greatest page size. -/
def greatestLimit : Nat := 1000

/-- The page size that a question gets. -/
def effectiveLimit (f : Filters) : Nat :=
  if f.limit = 0 then usualLimit else min f.limit.toNat greatestLimit

/-- A condition that may be absent. -/
def agrees [DecidableEq α] (wanted : Option α) (a : α) : Bool :=
  match wanted with
  | none => true
  | some w => w = a

/-- Whether a company satisfies every condition. -/
def accepts (f : Filters) (c : Company) : Bool :=
  agrees f.name c.name && agrees f.kind c.kind && agrees f.registered c.registered

/-- The asked page of a list of companies: those accepted, ascending by name. -/
def page (f : Filters) (companies : List Company) : List Company :=
  let sorted := (companies.filter f.accepts).mergeSort fun a b => decide (a.name ≤ b.name)
  (sorted.drop f.offset.toNat).take f.effectiveLimit

end Filters

end CompanyRegistry.Company
