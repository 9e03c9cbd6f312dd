import CompanyRegistry.Access.Password
import CompanyRegistry.Proofs.Outcome
import CompanyRegistry.Proofs.Text.Base64
import CompanyRegistry.Proofs.Text.Digits

/-!
# Stored passwords, read back

A stored password is its fields with `$` between them, and none of the fields that are written holds a `$`
(`mark_not_mem_digits`, `mark_not_mem_base64`). So the fields are found again (`splitAt_render`). Fields that
are `Written` as a stored password's are read as what they say (`readFields_of_written`), and the password that was
stored fits (`verify_store`).
-/

namespace CompanyRegistry

theorem Base64.standard_proper : standard.Proper := ⟨by decide, by decide⟩

namespace Password

variable {iterations : Nat} {salt hash : Bytes}

/-! ### Fields -/

theorem splitAt_eq_splitOn (mark : Char) (cs : List Char) : splitAt mark cs = cs.splitOn mark := by
  induction cs with
  | nil => rfl
  | cons c cs ih =>
    rw [splitAt, ih, List.splitOn_cons_eq_if_modifyHead]
    by_cases h : c = mark
    · simp [h]
    · rw [if_neg h, if_neg (by simp [h])]
      split
      · rename_i hnil
        exact absurd hnil (List.splitOn_ne_nil mark cs)
      · rename_i f fs hcons
        rw [hcons]
        rfl

theorem mark_not_mem_digits (n : Nat) : '$' ∉ Decimal.digits n := by
  intro h
  cases Decimal.isDigit_of_mem_digits h

theorem mark_not_mem_base64 (b : Bytes) : '$' ∉ base64 b := by
  intro h
  have hdigit : ∀ n : Fin 64, Base64.standard.digit n ≠ '$' := by decide
  rw [base64, Base64.encode_eq] at h
  rcases List.mem_append.mp h with hdigits | hpadding
  · obtain ⟨n, hn, hmark⟩ := List.mem_map.mp hdigits
    exact hdigit ⟨n, Base64.lt_of_mem_sextets hn⟩ hmark
  · cases (List.mem_replicate.mp hpadding).2

/-- The fields of a stored password. -/
def fieldsOf (iterations : Nat) (salt hash : Bytes) : List (List Char) :=
  ["PBKDF2".toList, "sha512".toList, Decimal.digits iterations, base64 salt, base64 hash]

theorem render_toList : (render iterations salt hash).toList =
    ['$'].intercalate (fieldsOf iterations salt hash) := by
  have hhead : "PBKDF2$sha512$".toList = "PBKDF2".toList ++ '$' :: ("sha512".toList ++ ['$']) := by
    decide
  have hchars : (render iterations salt hash).toList =
      "PBKDF2$sha512$".toList ++ Decimal.digits iterations ++ '$' :: base64 salt ++
        '$' :: base64 hash := String.toList_ofList
  simp only [hchars, hhead, fieldsOf, List.intercalate, List.intersperse, List.flatten_cons,
    List.flatten_nil, List.append_nil, List.append_assoc, List.cons_append, List.nil_append]

theorem splitAt_render : splitAt '$' (render iterations salt hash).toList =
    fieldsOf iterations salt hash := by
  have hmark : ∀ f ∈ fieldsOf iterations salt hash, '$' ∉ f := by
    intro f hf
    simp only [fieldsOf, List.mem_cons, List.not_mem_nil, or_false] at hf
    rcases hf with rfl | rfl | rfl | rfl | rfl
    · decide
    · decide
    · exact mark_not_mem_digits iterations
    · exact mark_not_mem_base64 salt
    · exact mark_not_mem_base64 hash
  rw [splitAt_eq_splitOn, render_toList]
  exact List.splitOn_intercalate '$' hmark (List.cons_ne_nil _ _)

/-! ### Reading -/

theorem ofBase64?_base64 (b : Bytes) : ofBase64? (base64 b) = some b :=
  Base64.decode?_encode Base64.standard_proper .always b

theorem readIterations?_eq_some_iff {cs : List Char} {n : Nat} :
    readIterations? cs = some n ↔ Decimal.Spells cs n ∧ 0 < n ∧ n < 2 ^ 32 := by
  have hmost : n ≤ Decimal.maxU32 ↔ n < 2 ^ 32 := by
    show n ≤ 2 ^ 32 - 1 ↔ n < 2 ^ 32
    omega
  simp only [readIterations?, Option.filter_eq_some_iff, Decimal.plain?_eq_some_iff, hmost,
    decide_eq_true_eq]
  tauto

/-- The five fields of a stored password and what they say. -/
def Written (fields : List (List Char)) (s : Stored) : Prop :=
  ∃ number, fields = ["PBKDF2".toList, "sha512".toList, number, base64 s.salt, base64 s.hash] ∧
    Decimal.Spells number s.iterations ∧ 0 < s.iterations ∧ s.iterations < 2 ^ 32

theorem readFields_of_written {fields : List (List Char)} {s : Stored} (h : Written fields s) :
    readFields fields = .ok s := by
  obtain ⟨number, rfl, hnumber, hrange⟩ := h
  have hiterations : readIterations? number = some s.iterations :=
    readIterations?_eq_some_iff.mpr ⟨hnumber, hrange⟩
  unfold readFields
  dsimp only [List.getElem?_cons_zero, List.getElem?_cons_succ]
  rw [if_neg (by simp), if_neg (by simp)]
  simp only [Option.bind_some, hiterations, ofBase64?_base64]
  rfl

theorem readFields_render (hpos : 0 < iterations) (hwidth : iterations ≤ Decimal.maxU32) :
    readFields (splitAt '$' (render iterations salt hash).toList) =
      .ok ⟨iterations, salt, hash⟩ := by
  rw [splitAt_render]
  exact readFields_of_written
    ⟨_, rfl, Decimal.spells_digits iterations, hpos, Nat.lt_of_le_pred (by decide) hwidth⟩

theorem store_eq_ok_iff {password hash : String} :
    store password iterations salt = .ok hash ↔
      minLength ≤ password.length ∧ 0 < iterations ∧
        hash = render iterations salt (derive password salt iterations) := by
  unfold store
  split_ifs with hshort hzero
  · simp only [false_iff]
    omega
  · simp only [false_iff]
    omega
  · rw [Except.ok.injEq]
    constructor
    · rintro rfl
      exact ⟨by omega, by omega, rfl⟩
    · rintro ⟨-, -, rfl⟩
      rfl

theorem verify_render (password : String) (hpos : 0 < iterations)
    (hwidth : iterations ≤ Decimal.maxU32) :
    verify password (render iterations salt hash) = .ok (derive password salt iterations == hash) :=
  bind_eq_ok_iff.mpr ⟨_, readFields_render hpos hwidth, rfl⟩

/-- The password that was stored fits what is stored, whatever the salt. -/
theorem verify_store {password hash : String} (hwidth : iterations ≤ Decimal.maxU32)
    (h : store password iterations salt = .ok hash) : verify password hash = .ok true := by
  obtain ⟨-, hpos, rfl⟩ := store_eq_ok_iff.mp h
  rw [verify_render password hpos hwidth, beq_self_eq_true]

theorem length_derive (password : String) (salt : Bytes) (iterations : Nat) :
    (derive password salt iterations).length = 64 := by
  unfold derive Sha512.derive Sha512.State.octets
  simp [Bytes.ofNatBE]

end Password

end CompanyRegistry
