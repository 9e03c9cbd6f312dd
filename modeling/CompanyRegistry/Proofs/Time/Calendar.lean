import CompanyRegistry.Time.Date
import Mathlib.Tactic.IntervalCases
import Mathlib.Tactic.NormNum
import Mathlib.Tactic.SplitIfs

/-!
# Every number of a day is a date

The calendar repeats itself every 400 years, that is 146097 days. Within them a day is found by its century,
its four years, its year and its place in that year, all counted from a March (`Place`, `exists_place`). The
year that `ofDayNumber?` computes by division is the place's year (`Place.year_eq`); a place of 365, the
leap day, is found in leap years only (`Place.leap`). So month and day exist, and every number
within the years of the calendar is a date (`ofDayNumber?_isSome`).
-/

namespace CompanyRegistry.Date

/-- Where a day stands in its 400 years: in which century, four years of it, year of these and day of
that. -/
structure Place (day century quad year rest : Int) : Prop where
  day_eq : day = 36524 * century + 1461 * quad + 365 * year + rest
  century_mem : 0 ≤ century ∧ century ≤ 3
  quad_mem : 0 ≤ quad ∧ quad ≤ 24
  year_mem : 0 ≤ year ∧ year ≤ 3
  rest_mem : 0 ≤ rest ∧ rest ≤ 365
  leap : rest = 365 → year = 3 ∧ (quad = 24 → century = 3)

theorem exists_place {day : Int} (hlow : 0 ≤ day) (hhigh : day < 146097) :
    ∃ century quad year rest, Place day century quad year rest := by
  -- the last century and the last year of four are a day longer, and 4 is never their number
  obtain ⟨century, hcentury⟩ : ∃ c, c = min 3 (day / 36524) := ⟨_, rfl⟩
  obtain ⟨inCentury, hinCentury⟩ : ∃ r, r = day - 36524 * century := ⟨_, rfl⟩
  obtain ⟨quad, hquad⟩ : ∃ q, q = inCentury / 1461 := ⟨_, rfl⟩
  obtain ⟨inQuad, hinQuad⟩ : ∃ r, r = inCentury - 1461 * quad := ⟨_, rfl⟩
  obtain ⟨year, hyear⟩ : ∃ y, y = min 3 (inQuad / 365) := ⟨_, rfl⟩
  have hcenturyDays : 0 ≤ inCentury ∧ inCentury ≤ 36524 ∧ (inCentury = 36524 → century = 3) := by
    omega
  have hquadDays : 0 ≤ inQuad ∧ inQuad ≤ 1460 := by omega
  exact ⟨century, quad, year, inQuad - 365 * year, {
    day_eq := by omega
    century_mem := by omega
    quad_mem := by omega
    year_mem := by omega
    rest_mem := by omega
    leap := by omega }⟩

namespace Place

variable {day century quad year rest : Int}

/-- Taking off the leap days so far leaves whole years of 365 days. -/
theorem year_eq (h : Place day century quad year rest) :
    (day - day / 1460 + day / 36524 - day / 146096) / 365 = 100 * century + 4 * quad + year := by
  obtain ⟨hday, hcentury, hquad, hyear, hrest, hleap⟩ := h
  by_cases hlast : day = 146096
  · subst hlast
    omega
  · have hcenturies : day / 36524 = century := by omega
    have hwhole : day / 146096 = 0 := by omega
    have hquads : day / 1460 = 25 * century + quad +
        (if 1460 ≤ 24 * century + quad + 365 * year + rest then 1 else 0) := by
      split_ifs <;> omega
    rw [hcenturies, hwhole, hquads]
    split_ifs <;> omega

theorem rest_eq (h : Place day century quad year rest) :
    day - (365 * (100 * century + 4 * quad + year) + (100 * century + 4 * quad + year) / 4 -
      (100 * century + 4 * quad + year) / 100) = rest := by
  obtain ⟨hday, hcentury, hquad, hyear, hrest, hleap⟩ := h
  omega

/-- The leap day ends a year, so the year that it counts to is the next one. -/
theorem isLeapYear (h : Place day century quad year 365) (era : Int) :
    isLeapYear (100 * century + 4 * quad + year + era * 400 + 1) = true := by
  obtain ⟨hday, hcentury, hquad, hyear, hrest, hleap⟩ := h
  obtain ⟨rfl, hcenturies⟩ := hleap rfl
  have hfour : (100 * century + 4 * quad + 3 + era * 400 + 1) % 4 = 0 := by omega
  have hcenturyOr : (100 * century + 4 * quad + 3 + era * 400 + 1) % 100 ≠ 0 ∨
      (100 * century + 4 * quad + 3 + era * 400 + 1) % 400 = 0 := by
    by_cases hend : quad = 24
    · right
      have := hcenturies hend
      omega
    · left
      omega
  simp only [Date.isLeapYear, Bool.and_eq_true, Bool.or_eq_true, beq_iff_eq, bne_iff_ne]
  exact ⟨hfour, hcenturyOr⟩

end Place

theorem daysInMonth_february {year : Int} {day : Nat} (hday : day ≤ 29)
    (hleap : day = 29 → isLeapYear year = true) : day ≤ daysInMonth year 2 := by
  unfold daysInMonth
  by_cases h : isLeapYear year = true
  · simp [h, hday]
  · have hne : day ≠ 29 := fun h29 => h (hleap h29)
    simp [h]
    omega

/-- A day of a year that is counted from March falls into a month that has it. -/
theorem month_exists {rest mp month day year : Int} (hrest : 0 ≤ rest ∧ rest ≤ 365)
    (hmp : mp = (5 * rest + 2) / 153) (hmonth : month = if mp < 10 then mp + 3 else mp - 9)
    (hday : day = rest - (153 * mp + 2) / 5 + 1) (hleap : rest = 365 → isLeapYear year = true) :
    (1 ≤ month.toNat ∧ month.toNat ≤ 12) ∧ 1 ≤ day.toNat ∧
      day.toNat ≤ daysInMonth year month.toNat := by
  have hlow : 0 ≤ mp := by omega
  have hhigh : mp ≤ 11 := by omega
  -- from March to February: the months of 31 days, those of 30, and the last one
  interval_cases mp
  all_goals
    norm_num at hmonth
    subst hmonth
    refine ⟨by decide, by omega, ?_⟩
  case «11» =>
    refine daysInMonth_february (by omega) ?_
    intro h29
    exact hleap (by omega)
  all_goals
    simp only [daysInMonth]
    norm_num
    omega

/-- The calendar has every day whose year it has. -/
theorem ofDayNumber?_isSome {n : Int} (hlow : -96000000 ≤ n) (hhigh : n ≤ 95000000) :
    (ofDayNumber? n).isSome := by
  unfold ofDayNumber?
  extract_lets z era doe yoe doy mp day month year
  obtain ⟨century, quad, yearOfFour, rest, hplace⟩ := exists_place (show 0 ≤ doe by omega) (by omega)
  have hyoe : yoe = 100 * century + 4 * quad + yearOfFour := hplace.year_eq
  have hdoy : doy = rest := by
    rw [← hplace.rest_eq, ← hyoe]
  have hrest := hplace.rest_mem
  have hleap : doy = 365 → isLeapYear year = true := by
    intro hlast
    have hlastPlace : Place doe century quad yearOfFour 365 := by
      rw [← hlast, hdoy]
      exact hplace
    have hmonth : month = 2 := by omega
    have hyear : year = 100 * century + 4 * quad + yearOfFour + era * 400 + 1 := by
      simp only [year, hmonth, hyoe]
      omega
    rw [hyear]
    exact hlastPlace.isLeapYear era
  obtain ⟨⟨hmonth, hmonth'⟩, hday, hday'⟩ := month_exists (hdoy ▸ hrest) rfl rfl rfl hleap
  have hyear : minYear ≤ year ∧ year ≤ maxYear := by
    have hcentury := hplace.century_mem
    have hquad := hplace.quad_mem
    have hfour := hplace.year_mem
    unfold minYear maxYear
    omega
  unfold of?
  rw [dif_pos ⟨hyear.1, hyear.2, hmonth, hmonth', hday, hday'⟩]
  rfl

end CompanyRegistry.Date
