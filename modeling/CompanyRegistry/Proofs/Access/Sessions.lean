import CompanyRegistry.Access.Claims
import CompanyRegistry.Proofs.Time.Calendar
import CompanyRegistry.Proofs.Time.Instants
import Mathlib.Algebra.Order.Ring.Int

/-!
# Sessions

A user's session lasts the hours that its record says, or a day where the record says nothing positive
(`User.sessionLength_bounds`). Whatever these hours are, a session that starts in a year of four digits ends
inside the calendar, so that there are claims for it (`Claims.ofSession?_eq_some`).
-/

namespace CompanyRegistry

namespace Date

/-- The first day of 1970 is the day of number zero. -/
theorem dayNumber_nonneg {d : Date} (h : 1970 ≤ d.year) : 0 ≤ d.dayNumber := by
  obtain ⟨-, -, hmonth, hmonth', hday, -⟩ := d.isDay
  unfold dayNumber
  split_ifs with hbefore
  · dsimp only
    omega
  · dsimp only
    omega

theorem dayNumber_le {d : Date} (h : d.year ≤ 9999) : d.dayNumber ≤ 3000000 := by
  obtain ⟨-, -, hmonth, hmonth', hday, hday'⟩ := d.isDay
  have hdays := daysInMonth_le d.year d.month
  unfold dayNumber
  split_ifs with hbefore
  · dsimp only
    omega
  · dsimp only
    omega

end Date

theorem Instant.second_lt (t : Instant) : t.second < 86400 := t.onClock.1

namespace User

theorem sessionLength_bounds (u : User) : 1 ≤ u.sessionLength ∧ u.sessionLength < 2 ^ 31 := by
  have hhigh := u.sessionHours.toInt_lt
  unfold sessionLength ownSessionHours? usualSessionHours
  split_ifs with hown
  · exact ⟨hown, hhigh⟩
  · decide

end User

namespace Claims

/-- What the claims of a session say that starts at an instant. -/
def ofSession (u : User) (now : Instant) : Claims where
  subject := .user
  id := u.id
  username := u.username
  issuer := authority
  audience := authority
  notBefore := Int64.ofInt now.unixSeconds
  expires := Int64.ofInt (now.unixSeconds + u.sessionLength * 3600)

variable {now : Instant}

/-- A session that starts in a year of four digits has claims, however many hours it lasts. -/
theorem ofSession?_eq_some (u : User) (hstart : 1970 ≤ now.date.year)
    (hend : now.date.year ≤ 9999) : ofSession? u now = some (ofSession u now) := by
  have hday := Date.dayNumber_nonneg hstart
  have hday' := Date.dayNumber_le hend
  have hsecond := now.second_lt
  obtain ⟨hlength, hlength'⟩ := u.sessionLength_bounds
  have hdate := Date.ofDayNumber?_isSome
    (n := now.date.dayNumber + (now.second + u.sessionLength * 3600) / 86400)
    (by omega) (by omega)
  obtain ⟨d, hd⟩ := Option.isSome_iff_exists.mp hdate
  unfold ofSession?
  simp only [hd, ofSession]

theorem unixSeconds_bounds (hstart : 1970 ≤ now.date.year) (hend : now.date.year ≤ 9999) :
    0 ≤ now.unixSeconds ∧ now.unixSeconds < 2 ^ 40 := by
  have hday := Date.dayNumber_nonneg hstart
  have hday' := Date.dayNumber_le hend
  have hsecond := now.second_lt
  unfold Instant.unixSeconds
  omega

/-- The window of a session is as long as its hours. -/
theorem ofSession_window (u : User) (hstart : 1970 ≤ now.date.year)
    (hend : now.date.year ≤ 9999) :
    (ofSession u now).notBefore.toInt = now.unixSeconds ∧
      (ofSession u now).expires.toInt = now.unixSeconds + u.sessionLength * 3600 := by
  obtain ⟨hlow, hhigh⟩ := unixSeconds_bounds hstart hend
  obtain ⟨hlength, hlength'⟩ := u.sessionLength_bounds
  constructor
  · exact Int64.toInt_ofInt_of_le (by omega) (by omega)
  · exact Int64.toInt_ofInt_of_le (by omega) (by omega)

end Claims

end CompanyRegistry
