import CompanyRegistry.Proofs.Access.Passwords
import Mathlib.Data.Nat.Find

/-!
# What stored passwords are read

A stored password is judged field by field. `Fits` says what each field has to be, the sixth being that there is
none. Either all of them fit, and then the fields are those of a stored password (`Written`), or there is a first
one that does not (`written_or_firstMisfit`). The reader has an answer of its own for each of the two
(`readFields_of_written`, `readFields_of_firstMisfit`), so it gives it in no other case.
-/

namespace CompanyRegistry.Password

/-- What the field in a place has to be. -/
def Fits (field : Option (List Char)) : Nat → Prop
  | 0 => field = some "PBKDF2".toList
  | 1 => field = some "sha512".toList
  | 2 => ∃ cs n, field = some cs ∧ Decimal.Spells cs n ∧ 0 < n ∧ n < 2 ^ 32
  | 3 => ∃ salt, field = some (base64 salt)
  | 4 => ∃ hash, field = some (base64 hash)
  | _ => field = none

/-- The defects of the fields, in their order. -/
def fieldDefects : List Defect := [.scheme, .digest, .iterations, .salt, .hash, .trailing]

/-- The first field that does not fit, with its defect. -/
def FirstMisfit (fields : List (List Char)) (d : Defect) : Prop :=
  ∃ i : Nat, fieldDefects[i]? = some d ∧ (∀ j < i, Fits fields[j]? j) ∧ ¬ Fits fields[i]? i

variable {field : Option (List Char)} {fields : List (List Char)} {s : Stored} {d : Defect}

/-! ### One field -/

theorem bind_ofBase64?_eq_some_iff {b : Bytes} :
    field.bind ofBase64? = some b ↔ field = some (base64 b) := by
  have hread : ∀ cs, ofBase64? cs = some b ↔ cs = base64 b := fun cs =>
    Base64.decode?_eq_some_iff Base64.standard_proper (by decide)
  simp only [Option.bind_eq_some_iff, hread, exists_eq_right]

theorem fits_iterations_iff : Fits field 2 ↔ (field.bind readIterations?).isSome = true := by
  simp only [Fits, Option.isSome_iff_exists, Option.bind_eq_some_iff, readIterations?_eq_some_iff]
  exact exists_comm

theorem fits_salt_iff : Fits field 3 ↔ (field.bind ofBase64?).isSome = true := by
  simp only [Fits, Option.isSome_iff_exists, bind_ofBase64?_eq_some_iff]

theorem fits_hash_iff : Fits field 4 ↔ (field.bind ofBase64?).isSome = true := fits_salt_iff

/-! ### All fields -/

theorem readFields_of_firstMisfit (h : FirstMisfit fields d) : readFields fields = .error d := by
  obtain ⟨i, hd, hbefore, hi⟩ := h
  have hscheme : 0 < i → fields[0]? = some "PBKDF2".toList := hbefore 0
  have hdigest : 1 < i → fields[1]? = some "sha512".toList := hbefore 1
  have hnumber : 2 < i → ∃ n, fields[2]?.bind readIterations? = some n := fun hlt =>
    Option.isSome_iff_exists.mp (fits_iterations_iff.mp (hbefore 2 hlt))
  have hsalt : 3 < i → ∃ b, fields[3]?.bind ofBase64? = some b := fun hlt =>
    Option.isSome_iff_exists.mp (fits_salt_iff.mp (hbefore 3 hlt))
  have hhash : 4 < i → ∃ b, fields[4]?.bind ofBase64? = some b := fun hlt =>
    Option.isSome_iff_exists.mp (fits_hash_iff.mp (hbefore 4 hlt))
  match i with
  | 0 =>
    cases hd
    exact if_pos hi
  | 1 =>
    cases hd
    simp only [readFields, hscheme (by decide), ne_eq, not_true_eq_false, if_false]
    exact if_pos hi
  | 2 =>
    cases hd
    rw [fits_iterations_iff, Option.not_isSome_iff_eq_none] at hi
    simp [readFields, hscheme, hdigest, hi]
  | 3 =>
    cases hd
    rw [fits_salt_iff, Option.not_isSome_iff_eq_none] at hi
    obtain ⟨n, hn⟩ := hnumber (by decide)
    simp [readFields, hscheme, hdigest, hn, hi]
  | 4 =>
    cases hd
    rw [fits_hash_iff, Option.not_isSome_iff_eq_none] at hi
    obtain ⟨n, hn⟩ := hnumber (by decide)
    obtain ⟨salt, hsalt⟩ := hsalt (by decide)
    simp [readFields, hscheme, hdigest, hn, hsalt, hi]
  | 5 =>
    cases hd
    obtain ⟨n, hn⟩ := hnumber (by decide)
    obtain ⟨salt, hsalt⟩ := hsalt (by decide)
    obtain ⟨hash, hhash⟩ := hhash (by decide)
    have hmore : fields[5]?.isSome = true := Option.isSome_iff_ne_none.mpr hi
    simp [readFields, hscheme, hdigest, hn, hsalt, hhash, hmore]
  | i + 6 => cases hd

theorem eq_five {a b c d e : List Char} (h0 : fields[0]? = some a) (h1 : fields[1]? = some b)
    (h2 : fields[2]? = some c) (h3 : fields[3]? = some d) (h4 : fields[4]? = some e)
    (h5 : fields[5]? = none) : fields = [a, b, c, d, e] := by
  apply List.ext_getElem?
  intro i
  match i with
  | 0 => exact h0
  | 1 => exact h1
  | 2 => exact h2
  | 3 => exact h3
  | 4 => exact h4
  | i + 5 =>
    have hlength : fields.length ≤ 5 := List.getElem?_eq_none_iff.mp h5
    rw [List.getElem?_eq_none (by omega)]
    rfl

theorem written_or_firstMisfit (fields : List (List Char)) :
    (∃ s, Written fields s) ∨ ∃ d, FirstMisfit fields d := by
  by_cases hall : ∀ i < 6, Fits fields[i]? i
  · obtain ⟨number, n, h2, hnumber, hrange⟩ := hall 2 (by decide)
    obtain ⟨salt, h3⟩ := hall 3 (by decide)
    obtain ⟨hash, h4⟩ := hall 4 (by decide)
    have hfields := eq_five (hall 0 (by decide)) (hall 1 (by decide)) h2 h3 h4 (hall 5 (by decide))
    exact Or.inl ⟨⟨n, salt, hash⟩, number, hfields, hnumber, hrange⟩
  · classical
    push Not at hall
    have hfirst := Nat.find_spec hall
    have hbound : Nat.find hall < fieldDefects.length := hfirst.1
    refine Or.inr ⟨fieldDefects[Nat.find hall], Nat.find hall, ?_, ?_, hfirst.2⟩
    · exact List.getElem?_eq_getElem hbound
    · intro j hj
      by_contra hmisfit
      exact Nat.find_min hall hj ⟨Nat.lt_trans hj hfirst.1, hmisfit⟩

theorem readFields_eq_ok_iff : readFields fields = .ok s ↔ Written fields s := by
  constructor
  · intro h
    rcases written_or_firstMisfit fields with ⟨s', hwritten⟩ | ⟨d, hmisfit⟩
    · rw [readFields_of_written hwritten] at h
      cases h
      exact hwritten
    · rw [readFields_of_firstMisfit hmisfit] at h
      cases h
  · exact readFields_of_written

theorem readFields_eq_error_iff : readFields fields = .error d ↔ FirstMisfit fields d := by
  constructor
  · intro h
    rcases written_or_firstMisfit fields with ⟨s, hwritten⟩ | ⟨d', hmisfit⟩
    · rw [readFields_of_written hwritten] at h
      cases h
    · rw [readFields_of_firstMisfit hmisfit] at h
      cases h
      exact hmisfit
  · exact readFields_of_firstMisfit

/-! ### Stored texts -/

variable {password stored : String}

theorem verify_eq_ok_iff {b : Bool} : verify password stored = .ok b ↔
    ∃ s, Written (stored.toList.splitOn '$') s ∧
      (b = true ↔ s.hash.length = 64 ∧ s.hash = derive password s.salt s.iterations) := by
  have hfits : ∀ s : Stored, (.ok (derive password s.salt s.iterations == s.hash) : Except Defect Bool) =
      .ok b ↔ (b = true ↔ s.hash.length = 64 ∧ s.hash = derive password s.salt s.iterations) := by
    intro s
    have hlength : s.hash = derive password s.salt s.iterations → s.hash.length = 64 := by
      intro hhash
      rw [hhash, length_derive]
    rw [Except.ok.injEq, and_iff_right_of_imp hlength, Bool.eq_iff_iff, beq_iff_eq,
      eq_comm (b := s.hash)]
    exact iff_comm
  unfold verify
  simp only [splitAt_eq_splitOn, bind_eq_ok_iff, readFields_eq_ok_iff]
  exact exists_congr fun s => and_congr_right fun _ => hfits s

theorem verify_eq_error_iff : verify password stored = .error d ↔
    FirstMisfit (stored.toList.splitOn '$') d := by
  rw [← readFields_eq_error_iff, verify, splitAt_eq_splitOn]
  cases readFields (stored.toList.splitOn '$') with
  | error e => simp [bind, Except.bind]
  | ok s => simp [bind, Except.bind, pure, Except.pure]

/-- **Stored passwords are checked field by field.** A password of six characters or more can be stored under every
salt and any positive number of iterations of 32 bits, and then fits what is stored. Of every text, whoever
stored it,

* a password is compared with it exactly if it has the five fields of a stored password, and fits exactly if the
  last of them tells the 64 octets that are derived from it, so never if that is shorter or longer;
* otherwise it is told malformed, with the defect of its first field that is wrong. -/
theorem stored_passwords_are_checked :
    (∀ (password : String) (iterations : Nat) (salt : Bytes),
      6 ≤ password.length → 0 < iterations → iterations < 2 ^ 32 →
      ∃ text, store password iterations salt = .ok text ∧ verify password text = .ok true) ∧
    (∀ (password stored : String) (b : Bool), verify password stored = .ok b ↔
      ∃ s, Written (stored.toList.splitOn '$') s ∧
        (b = true ↔ s.hash.length = 64 ∧ s.hash = derive password s.salt s.iterations)) ∧
    (∀ (password stored : String) (d : Defect), verify password stored = .error d ↔
      FirstMisfit (stored.toList.splitOn '$') d) ∧
    fieldDefects.map Defect.message = ["unknown scheme", "unknown digest", "iterations", "salt", "hash",
      "trailing data"].map malformed := by
  refine ⟨?_, ?_, ?_, rfl⟩
  · intro password iterations salt hlong hpos hwidth
    have hstored : store password iterations salt =
        .ok (render iterations salt (derive password salt iterations)) :=
      store_eq_ok_iff.mpr ⟨hlong, hpos, rfl⟩
    exact ⟨_, hstored, verify_store (Nat.le_pred_of_lt hwidth) hstored⟩
  · intro password stored b
    exact verify_eq_ok_iff
  · intro password stored d
    exact verify_eq_error_iff

/-- A password is stored and fits. A text with a signed number and an empty hash is compared and fits no password, and
one with no iterations is refused for them. -/
theorem secret_is_checked :
    (∃ text, store "secret" 1 [] = .ok text ∧ verify "secret" text = .ok true) ∧
    verify "secret" "PBKDF2$sha512$+01$AA==$" = .ok false ∧
    verify "secret" "PBKDF2$sha512$0$!!$" = .error .iterations := by
  obtain ⟨hstore, hcompared, hmalformed, -⟩ := stored_passwords_are_checked
  refine ⟨hstore "secret" 1 [] (by decide) (by decide) (by decide), ?_, ?_⟩
  · refine (hcompared _ _ _).mpr ⟨⟨1, [0], []⟩, ⟨"+01".toList, by decide, ?_, by decide, by decide⟩, by decide⟩
    exact ⟨['0', '1'], Or.inr rfl, by decide, by simp [Decimal.isDigit], by decide⟩
  · have hfields : "PBKDF2$sha512$0$!!$".toList.splitOn '$' =
        ["PBKDF2".toList, "sha512".toList, "0".toList, "!!".toList, []] := by decide
    have hbefore : ∀ j < 2, Fits ["PBKDF2".toList, "sha512".toList, "0".toList, "!!".toList, []][j]? j :=
      Nat.forall_lt_succ_right.mpr ⟨Nat.forall_lt_succ_right.mpr ⟨by simp, rfl⟩, rfl⟩
    rw [hmalformed, hfields]
    refine ⟨2, rfl, hbefore, ?_⟩
    rw [fits_iterations_iff]
    decide

end CompanyRegistry.Password
