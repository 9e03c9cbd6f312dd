import CompanyRegistry.Proofs.Outcome
import CompanyRegistry.Proofs.Text.Blanks
import CompanyRegistry.Proofs.Text.Digits
import CompanyRegistry.Time.Instant

/-!
# Instants, read back

The text of every instant reads as that instant (`Instant.parse?_text`), leap seconds and years of a sign
included. Each part of the text is read back for itself and leaves what follows; a part that could run on,
a number that is, is either as long as it may get or followed by something that is no digit.
-/

namespace CompanyRegistry

namespace Date

theorem of?_parts (d : Date) : of? d.year d.month d.day = some d := dif_pos d.isDay

theorem month_lt (d : Date) : d.month < 100 := by
  obtain ⟨-, -, -, hmonth, -⟩ := d.isDay
  omega

theorem daysInMonth_le (year : Int) (month : Nat) : daysInMonth year month ≤ 31 := by
  unfold daysInMonth
  split_ifs <;> decide

theorem day_lt (d : Date) : d.day < 100 := by
  obtain ⟨-, -, -, -, -, hday⟩ := d.isDay
  have hdays := daysInMonth_le d.year d.month
  omega

end Date

namespace Instant

open Decimal (padded isDigit ofDigits)

variable {rest : List Char}

theorem of?_parts (t : Instant) : of? t.date t.second t.nano = some t := dif_pos t.onClock

/-! ### Numbers and marks -/

theorem isBlank_of_isDigit {c : Char} (h : isDigit c = true) : Text.isBlank c = false := by
  obtain ⟨hlow, hhigh⟩ := Decimal.isDigit_iff.mp h
  simp only [Text.isBlank]
  simp
  omega

/-- Nothing that a number could go on with. -/
def EndsDigits (rest : List Char) : Prop := ∀ c ∈ rest.head?, isDigit c = false

theorem takeWhile_isDigit {ds : List Char} (hdigits : ∀ c ∈ ds, isDigit c = true)
    (hrest : EndsDigits rest) : (ds ++ rest).takeWhile isDigit = ds := by
  rw [List.takeWhile_append_of_pos hdigits]
  cases rest with
  | nil => simp
  | cons c rest => simp [hrest c rfl]

theorem takeWhile_take {most : Nat} {ds : List Char} (hdigits : ∀ c ∈ ds, isDigit c = true)
    (hlength : ds.length ≤ most) (hrest : ds.length = most ∨ EndsDigits rest) :
    ((ds ++ rest).take most).takeWhile isDigit = ds := by
  rw [List.take_append, List.take_of_length_le hlength]
  apply takeWhile_isDigit hdigits
  intro c hc
  rcases hrest with hfull | hrest
  · simp [hfull] at hc
  · rw [List.head?_take] at hc
    split_ifs at hc
    · cases hc
    · exact hrest c hc

theorem readNumber?_append {most : Nat} {ds : List Char} (hne : ds ≠ [])
    (hdigits : ∀ c ∈ ds, isDigit c = true) (hlength : ds.length ≤ most)
    (hrest : ds.length = most ∨ EndsDigits rest) :
    readNumber? most (ds ++ rest) = some (ofDigits ds, rest) := by
  unfold readNumber?
  rw [takeWhile_take hdigits hlength hrest, if_neg hne, List.drop_left]

theorem padded_cons (width n : Nat) :
    ∃ c r, padded width n = c :: r ∧ isDigit c = true := by
  cases h : padded width n with
  | nil =>
    rw [padded, List.append_eq_nil_iff] at h
    exact absurd h.2 (Decimal.digits_ne_nil n)
  | cons c r =>
    have hmem : c ∈ padded width n := by
      rw [h]
      exact List.mem_cons_self
    exact ⟨c, r, rfl, Decimal.isDigit_of_mem_padded hmem⟩

/-- A number that fills its width. -/
theorem readNumber?_padded {width n : Nat} (hwidth : 0 < width) (h : n < 10 ^ width) :
    readNumber? width (padded width n ++ rest) = some (n, rest) := by
  have hlength := Decimal.length_padded hwidth h
  have hne : padded width n ≠ [] := List.ne_nil_of_length_pos (by omega)
  rw [readNumber?_append hne (fun c => Decimal.isDigit_of_mem_padded) (Nat.le_of_eq hlength)
    (Or.inl hlength),
    Decimal.ofDigits_padded]

theorem readPair?_padded {n : Nat} (h : n < 100) :
    readPair? (padded 2 n ++ rest) = some (n, rest) := by
  obtain ⟨c, r, hpadded, hc⟩ := padded_cons 2 n
  have hread : readNumber? 2 (padded 2 n ++ rest) = some (n, rest) :=
    readNumber?_padded (by decide) h
  rw [hpadded, List.cons_append] at hread ⊢
  rw [readPair?, Text.trimLeft_cons (isBlank_of_isDigit hc), hread]

theorem readMark?_cons {mark : Char} (h : Text.isBlank mark = false) :
    readMark? mark (mark :: rest) = some rest := by
  unfold readMark?
  rw [Text.trimLeft_cons h]
  exact if_pos rfl

/-! ### Years -/

/-- A number after a sign: all digits that stand there. -/
theorem readNumber?_signed (n : Nat) (h : EndsDigits rest) :
    readNumber? (padded 4 n ++ rest).length (padded 4 n ++ rest) = some (n, rest) := by
  have hne : padded 4 n ≠ [] := by
    obtain ⟨c, r, hpadded, -⟩ := padded_cons 4 n
    simp [hpadded]
  rw [readNumber?_append hne (fun c => Decimal.isDigit_of_mem_padded) (by simp) (Or.inr h),
    Decimal.ofDigits_padded]

theorem readYear?_yearText (year : Int) (h : EndsDigits rest) :
    readYear? (yearText year ++ rest) = some (year, rest) := by
  unfold yearText
  split_ifs with hplain hnegative
  · obtain ⟨c, r, hpadded, hc⟩ := padded_cons 4 year.toNat
    have hread : readNumber? 4 (padded 4 year.toNat ++ rest) = some (year.toNat, rest) :=
      readNumber?_padded (by decide) (by omega)
    rw [hpadded, List.cons_append] at hread ⊢
    unfold readYear?
    rw [Text.trimLeft_cons (isBlank_of_isDigit hc)]
    split
    · rename_i heq
      cases (List.cons.inj heq).1
      cases hc
    · rename_i heq
      cases (List.cons.inj heq).1
      cases hc
    · rw [hread]
      exact congrArg (fun y => some (y, rest)) (Int.toNat_of_nonneg hplain.1)
  · rw [readYear?, List.cons_append, Text.trimLeft_cons (by decide)]
    simp only [readNumber?_signed year.natAbs h, Option.map_some]
    exact congrArg (fun y => some (y, rest)) (by omega)
  · rw [readYear?, List.cons_append, Text.trimLeft_cons (by decide)]
    simp only [readNumber?_signed year.natAbs h, Option.map_some]
    exact congrArg (fun y => some (y, rest)) (by omega)

/-! ### Fractions -/

/-- A fraction of as many digits as it takes. -/
theorem readFraction?_padded {width n : Nat} (hwidth : 0 < width) (hmost : width ≤ 9)
    (h : n < 10 ^ width) (hrest : EndsDigits rest) :
    readFraction? ('.' :: (padded width n ++ rest)) =
      some (n * Nat.pow 10 (9 - width), rest) := by
  have hlength := Decimal.length_padded hwidth h
  have hne : padded width n ≠ [] := List.ne_nil_of_length_pos (by omega)
  have hdigits : ((padded width n ++ rest).take 9).takeWhile isDigit = padded width n :=
    takeWhile_take (fun c => Decimal.isDigit_of_mem_padded) (by omega) (Or.inr hrest)
  have hafter : ((padded width n ++ rest).drop width).dropWhile isDigit = rest := by
    rw [List.drop_left' hlength]
    cases rest with
    | nil => rfl
    | cons c r => exact List.dropWhile_cons_of_neg (by simp [hrest c rfl])
  unfold readFraction?
  simp only [hdigits, ne_eq, hne, not_false_eq_true, guard, if_true, hafter, hlength,
    Decimal.ofDigits_padded]
  rfl

theorem endsDigits_Z : EndsDigits ['Z'] := by
  rintro c ⟨⟩
  rfl

theorem readFraction?_fractionText {nano : Nat} (h : nano < billion) :
    readFraction? (fractionText nano ++ ['Z']) = some (nano, ['Z']) := by
  unfold billion at h
  unfold fractionText
  split_ifs with hzero hmilli hmicro
  · rw [hzero]
    rfl
  · rw [List.cons_append, readFraction?_padded (by decide) (by decide) (by omega) endsDigits_Z]
    exact congrArg (fun n => some (n, ['Z'])) (Nat.div_mul_cancel (Nat.dvd_of_mod_eq_zero hmilli))
  · rw [List.cons_append, readFraction?_padded (by decide) (by decide) (by omega) endsDigits_Z]
    exact congrArg (fun n => some (n, ['Z'])) (Nat.div_mul_cancel (Nat.dvd_of_mod_eq_zero hmicro))
  · rw [List.cons_append, readFraction?_padded (by decide) (by decide) h endsDigits_Z]
    exact congrArg (fun n => some (n, ['Z'])) (Nat.mul_one nano)

/-! ### Instants -/

theorem textChars_eq (t : Instant) : t.textChars =
    yearText t.date.year ++ ('-' :: (padded 2 t.date.month ++ ('-' :: (padded 2 t.date.day ++
      ('T' :: (padded 2 (t.second / 3600) ++ (':' :: (padded 2 (t.second / 60 % 60) ++
        (':' :: (padded 2 t.secondOfMinute ++ (fractionText (t.nano % billion) ++
          ['Z']))))))))))) := by
  simp only [textChars, List.append_assoc, List.cons_append]

/-- A leap second is shown as second 60. -/
theorem of?_leap (t : Instant) (h : t.secondOfMinute = 60) :
    of? t.date (t.second / 3600 * 3600 + t.second / 60 % 60 * 60 + 59)
      (billion + t.nano % billion) = some t := by
  obtain ⟨-, hnano, hleap⟩ := t.onClock
  unfold secondOfMinute billion at h
  unfold billion at hnano hleap ⊢
  have hs : t.second / 3600 * 3600 + t.second / 60 % 60 * 60 + 59 = t.second := by
    split_ifs at h <;> omega
  have hn : 1000000000 + t.nano % 1000000000 = t.nano := by
    split_ifs at h <;> omega
  rw [hs, hn, of?_parts]

theorem of?_plain (t : Instant) (h : t.secondOfMinute ≠ 60) :
    of? t.date (t.second / 3600 * 3600 + t.second / 60 % 60 * 60 + t.secondOfMinute)
      (t.nano % billion) = some t := by
  obtain ⟨-, -, hleap⟩ := t.onClock
  unfold secondOfMinute at h ⊢
  have hlate : ¬ billion ≤ t.nano := by
    intro hlate
    exact h (by rw [hleap hlate, if_pos hlate])
  have hs : t.second / 3600 * 3600 + t.second / 60 % 60 * 60 + (t.second % 60 + 0) = t.second := by
    omega
  rw [if_neg hlate, hs, Nat.mod_eq_of_lt (Nat.lt_of_not_le hlate), of?_parts]

/-- **Every instant is read back** from its text. -/
theorem parse?_text (t : Instant) : parse? t.text = some t := by
  obtain ⟨hsecond, -⟩ := t.onClock
  have hdash : ∀ r, EndsDigits ('-' :: r) := by
    rintro r c ⟨⟩
    rfl
  have hclock : t.second / 3600 < 24 ∧ t.second / 60 % 60 < 60 ∧ t.secondOfMinute ≤ 60 := by
    refine ⟨by omega, by omega, ?_⟩
    unfold secondOfMinute
    split_ifs <;> omega
  have hoffset : readOffset? ['Z'] = some (0, []) := by decide
  rw [parse?, text, String.toList_ofList, textChars_eq, parseChars?]
  refine bind_of_some (readYear?_yearText _ (hdash _)) ?_
  refine bind_of_some (readMark?_cons (by decide)) ?_
  refine bind_of_some (readPair?_padded t.date.month_lt) ?_
  refine bind_of_some (readMark?_cons (by decide)) ?_
  refine bind_of_some (readPair?_padded t.date.day_lt) ?_
  refine bind_of_some t.date.of?_parts ?_
  refine (if_pos (Or.inl rfl)).trans (bind_of_some rfl ?_)
  refine bind_of_some (readPair?_padded (by omega)) ?_
  refine bind_of_some (readMark?_cons (by decide)) ?_
  refine bind_of_some (readPair?_padded (by omega)) ?_
  refine bind_of_some (readMark?_cons (by decide)) ?_
  refine bind_of_some (readPair?_padded (by omega)) ?_
  refine bind_of_some (guard_of_true hclock) ?_
  refine bind_of_some (readFraction?_fractionText (Nat.mod_lt _ (by decide))) ?_
  refine bind_of_some hoffset ?_
  refine bind_of_some (guard_of_true rfl) ?_
  refine bind_of_some (guard_of_true (by decide)) ?_
  by_cases hleap : t.secondOfMinute = 60
  · exact (if_pos hleap).trans (bind_of_some (t.of?_leap hleap) rfl)
  · exact (if_neg hleap).trans (bind_of_some (t.of?_plain hleap) rfl)

end Instant

end CompanyRegistry
