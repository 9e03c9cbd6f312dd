import CompanyRegistry.Proofs.Text.Octets
import CompanyRegistry.Wire.Field
import Mathlib.Algebra.Group.Int.Defs
import Mathlib.Algebra.Group.Nat.Defs

/-!
# Fields, read back

A varint, a key and a field are read back from their octets and leave what follows. A message is its fields
one after another, so what is said of a message is put together from its parts: `Encodes` says which fields
octets are, and goes with `++`.
-/

namespace CompanyRegistry.Wire

variable {rest : Bytes}

/-! ### Varints -/

/-- The octets are those of these fields, whatever follows them. -/
def Encodes (s : Bytes) (fields : List Field) : Prop :=
  ∀ (deepest fuel : Nat) (t : Bytes) (more : List Field),
    (∀ fuel, t.length ≤ fuel → readFieldsWithin deepest fuel t = some more) →
    (s ++ t).length ≤ fuel → readFieldsWithin deepest fuel (s ++ t) = some (fields ++ more)

theorem Encodes.nil : Encodes [] [] := by
  intro deepest fuel t more hmore hfuel
  exact hmore fuel hfuel

theorem Encodes.append {s t : Bytes} {fields more : List Field} (hs : Encodes s fields)
    (ht : Encodes t more) : Encodes (s ++ t) (fields ++ more) := by
  intro deepest fuel u others hothers hfuel
  rw [List.append_assoc] at hfuel ⊢
  rw [List.append_assoc]
  exact hs deepest fuel (t ++ u) (more ++ others)
    (fun fuel hfuel => ht deepest fuel u others hothers hfuel) hfuel

theorem Encodes.field {s : Bytes} {f : Field} (hs : s ≠ [])
    (h : ∀ deepest rest, readField? deepest (s ++ rest) = some (f, rest)) : Encodes s [f] := by
  intro deepest fuel t more hmore hfuel
  obtain ⟨b, r, rfl⟩ := List.exists_cons_of_ne_nil hs
  rw [List.cons_append, List.length_cons, List.length_append] at hfuel
  cases fuel with
  | zero => omega
  | succ fuel =>
    have hread := h deepest t
    rw [List.cons_append] at hread ⊢
    rw [readFieldsWithin, hread]
    simp only [hmore fuel (by omega), Option.map_some]
    rfl

theorem Encodes.readFields {s : Bytes} {fields : List Field} (h : Encodes s fields) (level : Nat) :
    readFields? level s = some fields := by
  have hend : ∀ fuel, ([] : Bytes).length ≤ fuel →
      readFieldsWithin (deepestNesting - level) fuel [] = some [] := by
    intro fuel _
    cases fuel <;> rfl
  have hread := h _ s.length [] [] hend (Nat.le_of_eq (by rw [List.append_nil]))
  rwa [List.append_nil, List.append_nil] at hread

end CompanyRegistry.Wire
