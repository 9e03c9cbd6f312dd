import CompanyRegistry.Proofs.Text.Octets
import CompanyRegistry.Text.Decimal
import Mathlib.Algebra.Group.Int.Defs
import Mathlib.Algebra.Group.Nat.Defs

/-!
# Decimal digits

What is known of the digits that a number is written with: they are digits, they spell the number
(`ofDigits_digits`), none is a leading zero (`head?_digits`), and a number padded to a width has just that
many (`length_padded`). The same is said of their octets where octets are read. A plain number is read from
every text that spells it (`plain?_eq_some_iff`).
-/

namespace CompanyRegistry.Decimal

theorem isDigit_iff {c : Char} : isDigit c = true ↔ 0x30 ≤ c.toNat ∧ c.toNat ≤ 0x39 := by
  simp only [isDigit, Bool.and_eq_true, decide_eq_true_eq, Char.le_def, UInt32.le_iff_toNat_le]
  rfl

theorem digits_ne_nil (n : Nat) : digits n ≠ [] := Nat.toDigits_ne_nil

theorem isDigit_of_mem_digits {n : Nat} {c : Char} (h : c ∈ digits n) : isDigit c = true := by
  have hdigit := Nat.isDigit_of_mem_toDigits (by decide) (by decide) h
  simp only [Char.isDigit, Bool.and_eq_true, decide_eq_true_eq, ge_iff_le,
    UInt32.le_iff_toNat_le] at hdigit
  exact isDigit_iff.mpr hdigit

theorem ofDigits_digits (n : Nat) : ofDigits (digits n) = n := Nat.ofDigitChars_ten_toDigits

theorem head?_digits {n : Nat} (h : n ≠ 0) : (digits n).head? ≠ some '0' := by
  induction n using Nat.strongRecOn with
  | ind n ih =>
    unfold digits at ih ⊢
    rw [Nat.toDigits_eq_if (by decide)]
    split_ifs with hsmall
    · have hchar : ∀ d : Fin 10, d.val ≠ 0 → Nat.digitChar d ≠ '0' := by decide
      simpa using hchar ⟨n, hsmall⟩ h
    · rw [List.head?_append_of_ne_nil _ Nat.toDigits_ne_nil]
      exact ih (n / 10) (by omega) (by omega)

theorem length_padded {width n : Nat} (hwidth : 0 < width) (h : n < 10 ^ width) :
    (padded width n).length = width := by
  have hlength : (digits n).length ≤ width :=
    (Nat.length_toDigits_le_iff (by decide) hwidth).mpr h
  simp [padded, hlength]

theorem isDigit_of_mem_padded {width n : Nat} {c : Char} (h : c ∈ padded width n) :
    isDigit c = true := by
  rcases List.mem_append.mp h with hzero | hdigit
  · rw [(List.mem_replicate.mp hzero).2]
    rfl
  · exact isDigit_of_mem_digits hdigit

theorem ofDigits_padded (width n : Nat) : ofDigits (padded width n) = n := by
  unfold ofDigits padded
  rw [Nat.ofDigitChars_append, Nat.ofDigitChars_replicate_zero, Nat.mul_zero]
  exact ofDigits_digits n

/-- A text spells a number: in decimal digits, of which the first may be zeros, behind a plus sign or none. -/
def Spells (cs : List Char) (n : Nat) : Prop :=
  ∃ ds, (cs = ds ∨ cs = '+' :: ds) ∧ ds ≠ [] ∧ (∀ c ∈ ds, isDigit c = true) ∧ ofDigits ds = n

theorem spells_digits (n : Nat) : Spells (digits n) n :=
  ⟨digits n, Or.inl rfl, digits_ne_nil n, fun _ => isDigit_of_mem_digits, ofDigits_digits n⟩

theorem plain?_eq_some_iff {most n : Nat} {cs : List Char} :
    plain? most cs = some n ↔ Spells cs n ∧ n ≤ most := by
  unfold plain?
  extract_lets body
  have hbody : ∀ ds, (cs = ds ∨ cs = '+' :: ds) → (∀ c ∈ ds, isDigit c = true) → ds = body := by
    rintro ds (rfl | rfl) hdigits
    · unfold body
      split
      · -- a plus sign is no digit
        cases hdigits '+' List.mem_cons_self
      · rfl
    · rfl
  have hcs : cs = body ∨ cs = '+' :: body := by
    unfold body
    split
    · exact Or.inr rfl
    · exact Or.inl rfl
  split_ifs with hspelled
  · obtain ⟨hne, hdigits, hmost⟩ := hspelled
    rw [Option.some.injEq]
    constructor
    · rintro rfl
      exact ⟨⟨body, hcs, hne, List.all_eq_true.mp hdigits, rfl⟩, hmost⟩
    · rintro ⟨⟨ds, hds, -, hall, rfl⟩, -⟩
      rw [hbody ds hds hall]
  · simp only [false_iff, not_and]
    rintro ⟨ds, hds, hne, hall, rfl⟩ hmost
    have hsame := hbody ds hds hall
    rw [hsame] at hne hall hmost
    exact hspelled ⟨hne, List.all_eq_true.mpr hall, hmost⟩

end CompanyRegistry.Decimal
