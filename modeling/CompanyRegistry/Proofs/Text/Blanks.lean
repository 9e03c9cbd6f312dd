import CompanyRegistry.Text.Blank
import Mathlib.Data.List.TakeWhile

/-!
# Trimming

A text is what trimming leaves of it with blanks on both sides (`exists_trim`), and trimming takes exactly
these away from a text that has none inside (`trim_padded`).
-/

namespace CompanyRegistry.Text

variable {before core after cs : List Char}

theorem trimLeft_cons {c : Char} (h : isBlank c = false) : trimLeft (c :: cs) = c :: cs :=
  List.dropWhile_cons_of_neg (by simp [h])

theorem trimLeft_of_not_blank (h : ∀ c ∈ cs, isBlank c = false) : trimLeft cs = cs := by
  cases cs with
  | nil => rfl
  | cons c cs => exact trimLeft_cons (h c List.mem_cons_self)

theorem trimLeft_padded (hbefore : ∀ c ∈ before, isBlank c = true) :
    trimLeft (before ++ cs) = trimLeft cs :=
  List.dropWhile_append_of_pos hbefore

theorem trimRight_padded (hafter : ∀ c ∈ after, isBlank c = true)
    (hcore : ∀ c ∈ core, isBlank c = false) : trimRight (core ++ after) = core := by
  have hafter' : ∀ c ∈ after.reverse, isBlank c = true := by
    intro c hc
    exact hafter c (List.mem_reverse.mp hc)
  have hcore' : ∀ c ∈ core.reverse, isBlank c = false := by
    intro c hc
    exact hcore c (List.mem_reverse.mp hc)
  show (trimLeft (core ++ after).reverse).reverse = core
  rw [List.reverse_append, trimLeft_padded hafter', trimLeft_of_not_blank hcore',
    List.reverse_reverse]

theorem trim_padded (hbefore : ∀ c ∈ before, isBlank c = true)
    (hafter : ∀ c ∈ after, isBlank c = true) (hcore : ∀ c ∈ core, isBlank c = false) :
    trim (before ++ (core ++ after)) = core := by
  rw [trim, trimLeft_padded hbefore]
  cases core with
  | nil =>
    have hempty : trimLeft after = [] := List.dropWhile_eq_nil_iff.mpr hafter
    rw [List.nil_append, hempty]
    rfl
  | cons c core =>
    rw [List.cons_append, trimLeft_cons (hcore c List.mem_cons_self)]
    exact trimRight_padded hafter hcore

theorem trim_of_not_blank (h : ∀ c ∈ cs, isBlank c = false) : trim cs = cs := by
  have hnone : ∀ c ∈ ([] : List Char), isBlank c = true := by simp
  have hpadded := trim_padded hnone hnone h
  rwa [List.nil_append, List.append_nil] at hpadded

theorem exists_trimRight (cs : List Char) :
    ∃ after, (∀ c ∈ after, isBlank c = true) ∧ cs = trimRight cs ++ after := by
  refine ⟨(cs.reverse.takeWhile isBlank).reverse, ?_, ?_⟩
  · intro c hc
    exact List.mem_takeWhile_imp (List.mem_reverse.mp hc)
  · rw [trimRight, ← List.reverse_append, List.takeWhile_append_dropWhile, List.reverse_reverse]

theorem exists_trim (cs : List Char) :
    ∃ before after, (∀ c ∈ before, isBlank c = true) ∧ (∀ c ∈ after, isBlank c = true) ∧
      cs = before ++ (trim cs ++ after) := by
  obtain ⟨after, hafter, hright⟩ := exists_trimRight (trimLeft cs)
  refine ⟨cs.takeWhile isBlank, after, ?_, hafter, ?_⟩
  · intro c hc
    exact List.mem_takeWhile_imp hc
  · rw [trim, ← hright]
    exact List.takeWhile_append_dropWhile.symm

end CompanyRegistry.Text
