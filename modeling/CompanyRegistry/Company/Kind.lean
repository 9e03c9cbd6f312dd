import CompanyRegistry.Json.Decoder

/-!
# Legal forms

The four legal forms of a company with their labels, in storage and in JSON alike.
-/

namespace CompanyRegistry.Company

/-- The legal form of a company. -/
inductive Kind where
  | corporation
  | nonProfit
  | cooperative
  | soleProprietorship
  deriving DecidableEq, Repr

namespace Kind

/-- Every legal form. -/
def all : List Kind := [.corporation, .nonProfit, .cooperative, .soleProprietorship]

/-- The label of a legal form. -/
def label : Kind → String
  | .corporation => "corporation"
  | .nonProfit => "non_profit"
  | .cooperative => "cooperative"
  | .soleProprietorship => "sole_proprietorship"

/-- The legal form with this label. -/
def ofLabel? (s : String) : Option Kind := all.find? (·.label == s)

/-- The legal form in JSON. -/
def toJson (k : Kind) : Json := .text k.label

/-- Reads a legal form from JSON. -/
def ofJson : Json.Decoder Kind := Json.asVariant ofLabel?

end Kind

end CompanyRegistry.Company
