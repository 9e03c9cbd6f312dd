import CompanyRegistry.Company.Basic

/-!
# Events

What the outside log is told of a committed change: which company, which kind of change, and the
company's JSON (nothing for a deletion). A message is an event as it travels, with an optional key.
-/

namespace CompanyRegistry

/-- The kind of a change. -/
inductive EventKind where
  | created
  | updated
  | deleted
  deriving DecidableEq, Repr

namespace EventKind

/-- Every kind. -/
def all : List EventKind := [.created, .updated, .deleted]

/-- The label of a kind. -/
def label : EventKind → String
  | .created => "created"
  | .updated => "updated"
  | .deleted => "deleted"

/-- The kind with this label. -/
def ofLabel? (s : String) : Option EventKind := all.find? (·.label == s)

/-- The kind in JSON. -/
def toJson (k : EventKind) : Json := .text k.label

/-- Reads a kind from JSON. -/
def ofJson : Json.Decoder EventKind := Json.asVariant ofLabel?

end EventKind

/-- A committed change. -/
structure Event where
  entity : String
  kind : EventKind
  payload : Bytes
  deriving DecidableEq

namespace Event

/-- The event of a company that was created or updated. -/
def ofCompany (kind : EventKind) (c : Company) : Event := ⟨c.id.text, kind, Bytes.utf8 c.jsonText⟩

/-- The event of a company that was deleted. -/
def ofDeletion (id : Company.Id) : Event := ⟨id.text, .deleted, []⟩

end Event

/-- A message for the log. Without a key, a balancer chooses where it goes. -/
structure Message where
  key : Option Bytes := none
  value : Bytes := []
  deriving DecidableEq

namespace Message

/-- The octets of key and value together. -/
def size (m : Message) : Nat := (m.key.getD []).length + m.value.length

/-- The key as text, if there is one and it is text. -/
def keyText? (m : Message) : Option String := m.key.bind Bytes.ofUtf8?

end Message

end CompanyRegistry
