import CompanyRegistry.Proofs.Text.Octets
import Mathlib.Algebra.Group.Nat.Defs
import Mathlib.Tactic.SplitIfs

/-!
# The order of texts

Texts are compared character by character, and their octets with the same outcome (`utf8_lt_utf8`): the first
octet of a character grows with the number of octets that follow it, and these are the last digits of the
character's number to the base of 64.
-/

namespace CompanyRegistry.Bytes

/-! ### The octets of a character -/

/-- How many octets follow the first one of a character. -/
def following (n : Nat) : Nat :=
  if n < 0x80 then 0 else if n < 0x800 then 1 else if n < 0x10000 then 2 else 3

/-- What is added to the first octet of a character that so many follow. -/
def mark : Nat → Nat
  | 0 => 0
  | 1 => 192
  | 2 => 224
  | _ => 240

/-- The last digits of a number to the base of 64, as octets. -/
def digits64 : Nat → Nat → Bytes
  | 0, _ => []
  | k + 1, n => UInt8.ofNat (n / 64 ^ k % 64 + 128) :: digits64 k n

/-- The first octet of a character. -/
def first (n : Nat) : Nat := n / 64 ^ following n + mark (following n)

theorem toNat_lt_of_valid (c : Char) : c.toNat < 0x110000 := by
  rcases c.valid with h | ⟨-, h⟩
  · exact Nat.lt_trans h (by decide)
  · exact h

theorem encode_eq (c : Char) : String.utf8EncodeChar c =
    UInt8.ofNat (first c.toNat) :: digits64 (following c.toNat) c.toNat := by
  have hvalid : c.val.toNat < 0x110000 := toNat_lt_of_valid c
  unfold String.utf8EncodeChar first following Char.toNat
  generalize c.val.toNat = n at hvalid
  have htwo : n < 0x800 → n / 64 % 32 = n / 64 := fun h => Nat.mod_eq_of_lt (by omega)
  have hthree : n < 0x10000 → n / 4096 % 16 = n / 4096 := fun h => Nat.mod_eq_of_lt (by omega)
  have hfour : n / 262144 % 8 = n / 262144 := Nat.mod_eq_of_lt (by omega)
  by_cases h1 : n < 0x80
  · simp [h1, Nat.le_of_lt_succ h1, digits64, mark]
  · by_cases h2 : n < 0x800
    · simp [h1, h2, Nat.le_of_lt_succ h2, show ¬ n ≤ 127 by omega, htwo h2, digits64, mark]
    · by_cases h3 : n < 0x10000
      · simp [h1, h2, h3, Nat.le_of_lt_succ h3, show ¬ n ≤ 127 by omega, show ¬ n ≤ 2047 by omega,
          hthree h3, digits64, mark]
      · simp [h1, h2, h3, show ¬ n ≤ 127 by omega, show ¬ n ≤ 2047 by omega,
          show ¬ n ≤ 65535 by omega, hfour, digits64, mark]

/-! ### Comparing octets -/

variable {m n : Nat} {x y : Bytes}

theorem ofNat_cons_lt (hm : m < 0x100) (hn : n < 0x100) (h : m < n) :
    UInt8.ofNat m :: x < UInt8.ofNat n :: y := by
  rw [List.cons_lt_cons_iff]
  left
  rw [UInt8.lt_iff_toNat_lt, toNat_ofNat_octet hm, toNat_ofNat_octet hn]
  exact h

/-- Numbers with the same leading digits are compared by their last ones. -/
theorem digits64_lt {k : Nat} (h : m < n) (hsame : m / 64 ^ k = n / 64 ^ k) :
    digits64 k m ++ x < digits64 k n ++ y := by
  induction k with
  | zero =>
    rw [Nat.pow_zero, Nat.div_one, Nat.div_one] at hsame
    omega
  | succ k ih =>
    rw [Nat.pow_succ, ← Nat.div_div_eq_div_mul, ← Nat.div_div_eq_div_mul] at hsame
    rw [digits64, digits64, List.cons_append, List.cons_append]
    by_cases hdigit : m / 64 ^ k = n / 64 ^ k
    · rw [hdigit, List.cons_lt_cons_iff]
      exact Or.inr ⟨rfl, ih hdigit⟩
    · have hle : m / 64 ^ k ≤ n / 64 ^ k := Nat.div_le_div_right (Nat.le_of_lt h)
      exact ofNat_cons_lt (by omega) (by omega) (by omega)

theorem following_mono (h : m ≤ n) : following m ≤ following n := by
  unfold following
  split_ifs <;> omega

theorem first_lt_of_following_lt (hn : n < 0x110000) (h : following m < following n) :
    first m < first n ∧ first n < 0x100 := by
  unfold first
  unfold following at *
  split_ifs at * <;> simp only [mark] <;> omega

theorem first_lt (hn : n < 0x110000) : first n < 0x100 := by
  unfold first following
  split_ifs <;> simp only [mark] <;> omega

theorem encode_append_lt {c d : Char} (h : c < d) (x y : Bytes) :
    String.utf8EncodeChar c ++ x < String.utf8EncodeChar d ++ y := by
  have hlt : c.toNat < d.toNat := h
  have hc := first_lt (toNat_lt_of_valid c)
  have hd := first_lt (toNat_lt_of_valid d)
  rw [encode_eq, encode_eq, List.cons_append, List.cons_append]
  rcases Nat.lt_or_eq_of_le (following_mono (Nat.le_of_lt hlt)) with hmore | hsame
  · exact ofNat_cons_lt hc hd (first_lt_of_following_lt (toNat_lt_of_valid d) hmore).1
  · -- as many octets in both, so the first digit in which the numbers differ decides
    simp only [first, hsame] at hc hd ⊢
    by_cases hlead : c.toNat / 64 ^ following d.toNat = d.toNat / 64 ^ following d.toNat
    · rw [hlead, List.cons_lt_cons_iff]
      exact Or.inr ⟨rfl, digits64_lt hlt hlead⟩
    · have hle : c.toNat / 64 ^ following d.toNat ≤ d.toNat / 64 ^ following d.toNat :=
        Nat.div_le_div_right (Nat.le_of_lt hlt)
      exact ofNat_cons_lt hc hd (by omega)

/-! ### Comparing texts -/

theorem ofChars_lt_ofChars {cs ds : List Char} (h : cs < ds) : ofChars cs < ofChars ds := by
  induction h with
  | nil =>
    rw [ofChars_nil, ofChars_cons, encode_eq]
    exact List.nil_lt_cons _ _
  | rel h => exact encode_append_lt h _ _
  | cons _ ih => exact List.append_left_lt ih

/-- Texts are in the order of their octets. -/
theorem utf8_lt_utf8 {s t : String} (h : s < t) : utf8 s < utf8 t := by
  rw [utf8_eq_ofChars, utf8_eq_ofChars]
  exact ofChars_lt_ofChars (String.lt_iff.mp h)

end CompanyRegistry.Bytes
