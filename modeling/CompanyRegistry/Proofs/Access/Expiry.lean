import CompanyRegistry.Proofs.Access.Sessions
import CompanyRegistry.Proofs.Access.Tokens

/-!
# When a session is over

Three comparisons decide whether the token of a session is still read: the signature's check refuses a second
before the first and one after the last, and the window's check the last second itself, which the first two
let pass. `decode_session` is the whole course of time in one equation, and `session_lasts_its_hours`
what it means for a user: a session lasts the user's hours to the second, or a day.
-/

namespace CompanyRegistry

theorem User.sessionLength_eq (u : User) :
    u.sessionLength = if 0 < u.sessionHours.toInt then u.sessionHours.toInt else 24 := by
  unfold sessionLength ownSessionHours? usualSessionHours
  split_ifs <;> rfl

namespace Token

variable {k : Key} {clock second : Int} {c : Claims}

/-- A token written here is refused by no check but the one on its claims. -/
theorem verify_encode_eq (k : Key) (clock : Int) (c : Claims) :
    verify k clock (encode k c) = (checkClaims clock c).map fun _ => c := by
  have hlast : splitLast? (encode k c).toList =
      some (message c, signature k (message c)) :=
    splitLast?_eq_some_iff.mpr ⟨encode_toList k c, point_not_mem_part _⟩
  have hfirst : splitLast? (message c) = some (jsonPart header, jsonPart c.toJson) :=
    splitLast?_eq_some_iff.mpr ⟨rfl, point_not_mem_part _⟩
  have halgorithm : readPart headerAlgorithm (jsonPart header) = .ok "HS256" :=
    readPart_eq_ok_iff.mpr ⟨_, rfl, headerAlgorithm_header⟩
  have hclaims : readPart Claims.ofPayload (jsonPart c.toJson) = .ok c :=
    readPart_eq_ok_iff.mpr ⟨_, rfl, c.decodeText_toJson⟩
  unfold verify
  simp only [hlast, hfirst, halgorithm, hclaims, bind, Except.bind, ne_eq, not_true_eq_false, if_false]
  cases checkClaims clock c <;> rfl

/-! ### The check of the signature's library -/

section
variable (hstart : 0 ≤ c.notBefore.toInt) (hwindow : c.notBefore.toInt < c.expires.toInt)
include hstart hwindow

theorem checkClaims_early (h : clock < c.notBefore.toInt) : checkClaims clock c = .error .immature := by
  unfold checkClaims
  rw [if_neg (by omega), if_neg (by omega), if_neg (by omega), if_pos h]

theorem checkClaims_late (h : c.expires.toInt < clock) : checkClaims clock c = .error .expired := by
  unfold checkClaims
  rw [if_neg (by omega), if_neg (by omega), if_pos h]

/-- A token written here, as time passes. In the second of its end it is the window's check that refuses. -/
theorem decode_encode_eq (hissuer : c.issuer = Claims.authority)
    (haudience : c.audience = Claims.authority) :
    decode k second second (encode k c) =
      if second < c.notBefore.toInt then .error (.invalid .immature)
      else if second < c.expires.toInt then .ok c
      else if second = c.expires.toInt then .error (.untimely .late)
      else .error (.invalid .expired) := by
  have hchecked (h : c.notBefore.toInt ≤ second) (h' : second ≤ c.expires.toInt) :
      checkClaims second c = .ok () :=
    checkClaims_eq_ok_iff.mpr ⟨⟨hstart, by omega⟩, ⟨h, h'⟩, hissuer, haudience⟩
  unfold decode
  rw [verify_encode_eq]
  split_ifs with hearly hinside hend
  · rw [checkClaims_early hstart hwindow hearly]
    rfl
  · rw [hchecked (by omega) (by omega)]
    have hnow : c.checkWindow second = .ok () := Claims.checkWindow_eq_ok_iff.mpr ⟨by omega, hinside⟩
    simp only [Except.map, hnow]
  · rw [hchecked (by omega) (by omega)]
    have hover : c.checkWindow second = .error .late := by
      unfold Claims.checkWindow
      rw [if_neg (by omega), if_neg (by omega), if_pos (by omega)]
    simp only [Except.map, hover]
  · rw [checkClaims_late hstart hwindow (by omega)]
    rfl

end

/-! ### Sessions -/

/-- The token of a session, as time passes. -/
theorem decode_session (k : Key) (u : User) {now : Instant} (hstart : 1970 ≤ now.date.year)
    (hend : now.date.year ≤ 9999) (second : Int) :
    decode k second second (encode k (Claims.ofSession u now)) =
      if second < now.unixSeconds then .error (.invalid .immature)
      else if second < now.unixSeconds + u.sessionLength * 3600 then .ok (Claims.ofSession u now)
      else if second = now.unixSeconds + u.sessionLength * 3600 then .error (.untimely .late)
      else .error (.invalid .expired) := by
  obtain ⟨hnow, -⟩ := Claims.unixSeconds_bounds hstart hend
  obtain ⟨hbegins, hends⟩ := Claims.ofSession_window u hstart hend
  obtain ⟨hlength, -⟩ := u.sessionLength_bounds
  rw [decode_encode_eq (by omega) (by omega) rfl rfl, hbegins, hends]

/-- **A session lasts its hours.** Whoever the user is, and however many hours the record says, a session that
starts in a year of four digits gets claims and a token; the claims are the user's, from the second in which
the session starts until its hours are over, a day where the record says nothing positive. At whatever
instant the token is read, it is read as these claims if the second of that instant is inside their window,
and is refused if not. -/
theorem session_lasts_its_hours (k : Key) (u : User) {now : Instant} (hstart : 1970 ≤ now.date.year)
    (hend : now.date.year ≤ 9999) :
    ∃ c : Claims, Claims.ofSession? u now = some c ∧ issue? k u now = some (encode k c) ∧
      c.subject = .user ∧ c.id = u.id ∧ c.username = u.username ∧
      c.notBefore.toInt = now.unixSeconds ∧
      c.expires.toInt = now.unixSeconds +
        3600 * (if 0 < u.sessionHours.toInt then u.sessionHours.toInt else 24) ∧
      ∀ t : Instant,
        (decode k t.unixSeconds t.unixSeconds (encode k c) = .ok c ↔
          c.notBefore.toInt ≤ t.unixSeconds ∧ t.unixSeconds < c.expires.toInt) ∧
        ((∃ c', decode k t.unixSeconds t.unixSeconds (encode k c) = .ok c') ↔
          c.notBefore.toInt ≤ t.unixSeconds ∧ t.unixSeconds < c.expires.toInt) := by
  have hsome := Claims.ofSession?_eq_some u hstart hend
  obtain ⟨hbegins, hends⟩ := Claims.ofSession_window u hstart hend
  refine ⟨Claims.ofSession u now, hsome, ?_, rfl, rfl, rfl, hbegins, ?_, ?_⟩
  · rw [issue?, hsome, Option.map_some]
  · rw [hends, u.sessionLength_eq, Int.mul_comm]
  · intro t
    rw [decode_session k u hstart hend, hbegins, hends]
    split_ifs with hearly hinside hover
    · simp only [exists_false, false_iff]
      omega
    · simp only [Except.ok.injEq, exists_eq', true_iff]
      omega
    · simp only [exists_false, false_iff]
      omega
    · simp only [exists_false, false_iff]
      omega

/-! The longest session of all, begun in a leap second. -/

def leapSecond : Instant := ⟨⟨2016, 12, 31, by decide⟩, 86399, 1500000000, by decide⟩

def patientUser : User :=
  ⟨-9223372036854775808, "ada", "", false, 2147483647, leapSecond, leapSecond⟩

/-- The last instant of the session's last second, and the instant at which it is over. -/
def lastMoment : Instant := ⟨⟨247000, 10, 10, by decide⟩, 25198, 999999999, by decide⟩

def overMoment : Instant := ⟨⟨247000, 10, 10, by decide⟩, 25199, 0, by decide⟩

theorem longest_session_lasts_its_hours :
    (1970 ≤ leapSecond.date.year ∧ leapSecond.date.year ≤ 9999) ∧
    ∃ c : Claims, issue? briefKey patientUser leapSecond = some (encode briefKey c) ∧
      c.notBefore.toInt = 1483228799 ∧ c.expires.toInt = 1483228799 + 3600 * 2147483647 ∧
      decode briefKey leapSecond.unixSeconds leapSecond.unixSeconds (encode briefKey c) = .ok c ∧
      decode briefKey lastMoment.unixSeconds lastMoment.unixSeconds (encode briefKey c) = .ok c ∧
      ¬ ∃ c', decode briefKey overMoment.unixSeconds overMoment.unixSeconds (encode briefKey c) = .ok c' := by
  have hyears : 1970 ≤ leapSecond.date.year ∧ leapSecond.date.year ≤ 9999 := by decide
  have hseconds : leapSecond.unixSeconds = 1483228799 ∧
      lastMoment.unixSeconds = 1483228799 + 3600 * 2147483647 - 1 ∧
      overMoment.unixSeconds = 1483228799 + 3600 * 2147483647 := by decide
  have hhours : (if 0 < patientUser.sessionHours.toInt then patientUser.sessionHours.toInt else 24) =
      2147483647 := by decide
  obtain ⟨c, -, hissue, -, -, -, hbegins, hends, hread⟩ :=
    session_lasts_its_hours briefKey patientUser hyears.1 hyears.2
  rw [hseconds.1] at hbegins
  rw [hhours, hseconds.1] at hends
  refine ⟨hyears, c, hissue, hbegins, hends, ?_, ?_, ?_⟩
  · exact (hread leapSecond).1.mpr (by omega)
  · exact (hread lastMoment).1.mpr (by omega)
  · rw [(hread overMoment).2]
    omega

end Token

end CompanyRegistry
