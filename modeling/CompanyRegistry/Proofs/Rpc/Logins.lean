import CompanyRegistry.Proofs.Access.Passwords
import CompanyRegistry.Proofs.Access.Sessions
import CompanyRegistry.Proofs.Rpc.Turns
import CompanyRegistry.Proofs.Store.Uniqueness

/-!
# From a password to a change

A user that the store keeps stays in it (`Store.findUser?_run`), the password that it was created with fits
what is stored of it, and the token of the login tells a session whose window begins with the login. So
whoever logs in can change the register until the session ends (`login_opens_the_register`). A login that
fails for its name and one that fails for its password are answered alike.
-/

namespace CompanyRegistry

/-! ### Who is found -/

namespace Store

variable {store store' : Store} {username hash : String} {isAdmin : Bool} {hours : Int32}
  {created : Instant} {u : User}

theorem createUser_eq_ok (h : store.createUser username hash isAdmin hours created = .ok (u, store')) :
    store.findUser? username = none ∧
      u = ⟨store.nextUserId, username, hash, isAdmin, hours, created, created⟩ ∧
      store' = { store with users := store.users ++ [u] } := by
  unfold createUser at h
  split_ifs at h with htaken
  cases h
  exact ⟨Option.not_isSome_iff_eq_none.mp htaken, rfl, rfl⟩

/-- Commands do not take away a user, nor the name of one. -/
theorem findUser?_run (h : store.findUser? username = some u) (cmds : List Command) :
    (store.run cmds).findUser? username = some u := by
  obtain ⟨rest, hrest⟩ := store.users_prefix_run cmds
  unfold findUser? at h ⊢
  rw [← hrest, List.find?_append, h]
  rfl

theorem findUser?_createUser
    (h : store.createUser username hash isAdmin hours created = .ok (u, store')) :
    store'.findUser? username = some u := by
  obtain ⟨hnew, hu, rfl⟩ := createUser_eq_ok h
  unfold findUser? at hnew ⊢
  rw [List.find?_append, hnew]
  simp [hu]

theorem mem_of_findUser? (h : store.findUser? username = some u) :
    u ∈ store.users ∧ u.username = username := by
  have hname := List.find?_some h
  exact ⟨List.mem_of_find?_eq_some h, of_decide_eq_true hname⟩

end Store

/-! ### How a token is presented -/

/-- A text presents a token: bare, or as a bearer's. -/
def Presents (text token : String) : Prop := text = token ∨ text = "Bearer " ++ token

/-- A token written here holds no blank, so that nothing is taken off it when it comes bare. -/
theorem Token.bears_encode_bare (k : Key) (c : Claims) : Bears (encode k c) (encode k c) := by
  have hblank : ∀ ch ∈ (encode k c).toList, Text.isBlank ch = false :=
    forall_encode (by decide) (by decide) k c
  obtain ⟨hne, -⟩ := bears_encode k c
  refine ⟨hne, (encode k c).toList, (Text.trim_of_not_blank hblank).symm, Or.inr ⟨?_, rfl⟩⟩
  rintro ⟨rest, hprefix⟩
  have hspace : ' ' ∈ (encode k c).toList := by
    rw [← hprefix]
    exact List.mem_append_left _ (by decide)
  cases hblank ' ' hspace

namespace Rpc

theorem mayChange_of_presents {key : Token.Key} {store : Store} {now : Instant} {claims : Claims}
    {text : String} (htext : Presents text (Token.encode key claims))
    (huser : claims.subject = .user) (hchecked : Token.checkClaims now.unixSeconds claims = .ok ())
    (hwindow : claims.InWindow now.unixSeconds) (hknown : store.Knows claims) :
    MayChange key store now (some (Bytes.utf8 text)) := by
  rcases htext with rfl | rfl
  · exact mayChange_of_bears (printable_encode key claims) (Token.bears_encode_bare key claims) huser
      hchecked hwindow hknown
  · exact mayChange_of_encode huser hchecked hwindow hknown

/-! ### Sessions -/

section
variable {key : Token.Key} {store : Store} {now : Instant} {u : User} {text : String}

theorem session_checked (hstart : 1970 ≤ now.date.year) (hend : now.date.year ≤ 9999) {clock : Int}
    (hwindow : (Claims.ofSession u now).InWindow clock) :
    Token.checkClaims clock (Claims.ofSession u now) = .ok () := by
  obtain ⟨hfrom, huntil⟩ := hwindow
  obtain ⟨hnow, -⟩ := Claims.unixSeconds_bounds hstart hend
  obtain ⟨hbegins, -⟩ := Claims.ofSession_window u hstart hend
  exact Token.checkClaims_eq_ok_iff.mpr
    ⟨⟨by omega, by omega⟩, ⟨hfrom, Int.le_of_lt huntil⟩, rfl, rfl⟩

/-- Whoever has logged in may change the register until the session ends. -/
theorem session_mayChange (hstart : 1970 ≤ now.date.year) (hend : now.date.year ≤ 9999)
    {later : Instant} (hfrom : now.unixSeconds ≤ later.unixSeconds)
    (huntil : later.unixSeconds < now.unixSeconds + u.sessionLength * 3600)
    (hknown : u ∈ store.users)
    (htext : Presents text (Token.encode key (Claims.ofSession u now))) :
    MayChange key store later (some (Bytes.utf8 text)) := by
  obtain ⟨hbegins, hends⟩ := Claims.ofSession_window u hstart hend
  have hwindow : (Claims.ofSession u now).InWindow later.unixSeconds := ⟨by omega, by omega⟩
  exact mayChange_of_presents htext rfl (session_checked hstart hend hwindow) hwindow
    ⟨u, hknown, Or.inl rfl⟩

end

/-! ### Logging in -/

namespace Service

variable {key : Token.Key} {store : Store} {now : Instant} {username password : String} {u : User}

theorem login_of_unknown (h : store.findUser? username = none) :
    (inMemory key store).login now username password = .error refusedLogin := by
  simp only [login, inMemory, fromStorage, Except.mapError, h]
  rfl

theorem login_of_refused (h : store.findUser? username = some u)
    (hverify : Password.verify password u.passwordHash = .ok false) :
    (inMemory key store).login now username password = .error refusedLogin := by
  simp only [login, inMemory, fromStorage, Except.mapError, h, bind, Except.bind, hverify]

/-- A login with the right password is answered with the token of a session that begins now. -/
theorem login_eq_token (hstart : 1970 ≤ now.date.year) (hend : now.date.year ≤ 9999)
    (h : store.findUser? username = some u)
    (hverify : Password.verify password u.passwordHash = .ok true) :
    (inMemory key store).login now username password =
      .ok (.token (Token.encode key (Claims.ofSession u now))) := by
  have hissued : Token.issue? key u now = some (Token.encode key (Claims.ofSession u now)) := by
    rw [Token.issue?, Claims.ofSession?_eq_some u hstart hend]
    rfl
  simp only [login, inMemory, fromStorage, Except.mapError, h, bind, Except.bind, hverify, hissued]
  rfl

end Service

/-- **A login opens the register.** Let a store keep a user that was created with a password, whatever
happens to the store afterwards.

* A login with name and password is answered with a token for the hours of the user's sessions. Until
  they are over, whoever presents it, bare or as a bearer's, is authorised, and each change asked for is
  made if the store takes it.
* A login with an unknown name and one with a known name and a password that does not fit what is stored
  are answered with one and the same status. -/
theorem login_opens_the_register {password hash username : String} {iterations : Nat}
    {salt : Bytes} {isAdmin : Bool} {hours : Int32} {created : Instant} {store store' : Store} {u : User}
    {m : Moment} (hhash : Password.store password iterations salt = .ok hash)
    (hwidth : iterations ≤ Decimal.maxU32)
    (hcreated : store.createUser username hash isAdmin hours created = .ok (u, store'))
    (hstart : 2025 ≤ m.now.date.year) (hend : m.now.date.year ≤ 2100)
    (key : Token.Key) (cmds : List Store.Command) (authorization : Option Bytes) :
    (∃ token claims,
      ((Service.inMemory key (store'.run cmds)).handle m authorization
        (.login username password)).answer = .ok (.token token) ∧
      Token.decode key m.now.unixSeconds m.now.unixSeconds token = .ok claims ∧
      claims.expires.toInt = m.now.unixSeconds + u.sessionLength * 3600 ∧
      ∀ (more : List Store.Command) (later : Moment) (text : String),
        m.now.unixSeconds ≤ later.now.unixSeconds →
        later.now.unixSeconds < claims.expires.toInt → Presents text token →
        (∀ op, (Service.inMemory key (store'.run (cmds ++ more))).authorize later.now
          (some (Bytes.utf8 text)) op = .ok ()) ∧
        ∀ call ch store'', Asks later call ch → ch.apply (store'.run (cmds ++ more)) = .ok store'' →
          (Service.inMemory key (store'.run (cmds ++ more))).handle later (some (Bytes.utf8 text)) call =
            ⟨.ok ch.reply, store'', some ch.event⟩) ∧
    ∀ (key₁ key₂ : Token.Key) (store₁ store₂ : Store) (m₁ m₂ : Moment) (a₁ a₂ : Option Bytes)
      (unknown known password₁ password₂ : String) (u₂ : User),
      store₁.findUser? unknown = none → store₂.findUser? known = some u₂ →
      Password.verify password₂ u₂.passwordHash = .ok false →
      ((Service.inMemory key₁ store₁).handle m₁ a₁ (.login unknown password₁)).answer =
        .error (.unauthenticated "invalid username or password") ∧
      ((Service.inMemory key₂ store₂).handle m₂ a₂ (.login known password₂)).answer =
        .error (.unauthenticated "invalid username or password") := by
  have hstart' : 1970 ≤ m.now.date.year := by omega
  have hend' : m.now.date.year ≤ 9999 := by omega
  constructor
  · have hfound := Store.findUser?_createUser hcreated
    have hstored : u.passwordHash = hash := by
      obtain ⟨-, hu, -⟩ := Store.createUser_eq_ok hcreated
      rw [hu]
    have hverify : Password.verify password u.passwordHash = .ok true := by
      rw [hstored]
      exact Password.verify_store hwidth hhash
    obtain ⟨hbegins, hends⟩ := Claims.ofSession_window u hstart' hend'
    obtain ⟨hlength, -⟩ := u.sessionLength_bounds
    have hnow : (Claims.ofSession u m.now).InWindow m.now.unixSeconds := ⟨by omega, by omega⟩
    refine ⟨Token.encode key (Claims.ofSession u m.now), Claims.ofSession u m.now, ?_, ?_, hends, ?_⟩
    · exact Service.login_eq_token hstart' hend' (Store.findUser?_run hfound cmds) hverify
    · exact Token.decode_eq_ok_iff.mpr
        ⟨Token.verify_encode (session_checked hstart' hend' hnow), hnow⟩
    · intro more later text hfrom huntil htext
      obtain ⟨hknown, -⟩ := Store.mem_of_findUser? (Store.findUser?_run hfound (cmds ++ more))
      rw [hends] at huntil
      have hmay := session_mayChange hstart' hend' hfrom huntil hknown htext
      constructor
      · intro op
        exact Service.authorize_eq_ok_iff.mpr hmay
      · intro call ch store'' hasked htaken
        exact Service.handle_of_commits (Service.commits_inMemory_iff.mpr ⟨hmay, hasked, htaken⟩)
  · intro key₁ key₂ store₁ store₂ m₁ m₂ a₁ a₂ unknown known password₁ password₂ u₂ hunknown hknown
      hverify
    constructor
    · exact Service.login_of_unknown hunknown
    · exact Service.login_of_refused hknown hverify

/-! A sample: a user is created with a password, logs in at noon and deletes something a day later, a
second before the session ends. Of another user an empty hash is stored, which no password fits. -/

def adasHash : String := Password.render 1 [] (Password.derive "secret" [] 1)

def adasRecord : User := ⟨1, "ada", adasHash, false, 0, noon, noon⟩

def nextNoon : Moment :=
  ⟨⟨⟨2026, 1, 2, by decide⟩, 43199, 0, by decide⟩, noon, sampleMoment.fresh⟩

def lockedOut : User := { adasRecord with passwordHash := Password.render 1 [] [] }

theorem lockedOut_verify : Password.verify "secret" lockedOut.passwordHash = .ok false := by
  have hlength := Password.length_derive "secret" [] 1
  refine (Password.verify_render "secret" (by decide) (by decide)).trans ?_
  rw [beq_eq_false_iff_ne.mpr]
  intro hempty
  rw [hempty] at hlength
  cases hlength

theorem ada_logs_in :
    Password.store "secret" 1 [] = .ok adasHash ∧
    Store.empty.createUser "ada" adasHash false 0 noon = .ok (adasRecord, { users := [adasRecord] }) ∧
    (∃ token,
      ((Service.inMemory sampleKey { users := [adasRecord] }).handle sampleMoment none
        (.login "ada" "secret")).answer = .ok (.token token) ∧
      (Service.inMemory sampleKey { users := [adasRecord] }).authorize nextNoon.now
        (some (Bytes.utf8 token)) .delete = .ok ()) ∧
    ((Service.inMemory sampleKey { users := [lockedOut] }).handle sampleMoment none
        (.login "bob" "secret")).answer =
      ((Service.inMemory sampleKey { users := [lockedOut] }).handle sampleMoment none
        (.login "ada" "secret")).answer := by
  have hhash : Password.store "secret" 1 [] = .ok adasHash :=
    Password.store_eq_ok_iff.mpr ⟨by decide, by decide, rfl⟩
  have hcreated : Store.empty.createUser "ada" adasHash false 0 noon =
      .ok (adasRecord, { users := [adasRecord] }) := rfl
  obtain ⟨⟨token, claims, hanswer, -, hexpires, hlater⟩, hrefused⟩ :=
    login_opens_the_register (m := sampleMoment) hhash (by decide) hcreated (by decide) (by decide)
      sampleKey [] none
  have huntil : nextNoon.now.unixSeconds < claims.expires.toInt := by
    rw [hexpires]
    decide
  obtain ⟨hauthorized, -⟩ := hlater [] nextNoon token (by decide) huntil (Or.inl rfl)
  obtain ⟨hunknown, hwrong⟩ := hrefused sampleKey sampleKey { users := [lockedOut] }
    { users := [lockedOut] } sampleMoment sampleMoment none none "bob" "ada" "secret" "secret"
    lockedOut rfl rfl lockedOut_verify
  exact ⟨hhash, hcreated, ⟨token, hanswer, hauthorized .delete⟩, hunknown.trans hwrong.symm⟩

end Rpc

end CompanyRegistry
