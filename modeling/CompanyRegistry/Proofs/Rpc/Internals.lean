import CompanyRegistry.Proofs.Rpc.Failures
import CompanyRegistry.Proofs.Rpc.Logins
import CompanyRegistry.Proofs.Rpc.Messages

/-!
# Nothing fails inside

A call that fails with the code `internal` has met a fault of the service and not of the caller. There are four
places for that: the rule cannot be asked, the storage is out of order, a stored password cannot be read, or no
token can be written. With everything in memory none of them is met (`nothing_fails_inside`), as long as the
stored passwords are well-formed, which they stay whatever is called (`runs_do_not_fail_inside`).
-/

namespace CompanyRegistry

/-- A stored password is well-formed: it has the five fields of one, and no more. -/
def Password.WellFormed (stored : String) : Prop :=
  ∃ fields, Written (stored.toList.splitOn '$') fields

theorem Password.verify_of_wellFormed {stored : String} (h : WellFormed stored) (password : String) :
    ∃ right, verify password stored = .ok right := by
  obtain ⟨fields, hwritten⟩ := h
  rw [← splitAt_eq_splitOn] at hwritten
  exact ⟨_, bind_eq_ok_iff.mpr ⟨fields, readFields_of_written hwritten, rfl⟩⟩

theorem Password.wellFormed_store {password hash : String} {iterations : Nat} {salt : Bytes}
    (hwidth : iterations ≤ Decimal.maxU32) (h : store password iterations salt = .ok hash) :
    WellFormed hash := by
  obtain ⟨-, hpos, rfl⟩ := store_eq_ok_iff.mp h
  rw [WellFormed, ← splitAt_eq_splitOn, splitAt_render]
  exact ⟨⟨iterations, salt, _⟩, Decimal.digits iterations, rfl, Decimal.spells_digits iterations, hpos,
    Nat.lt_of_le_pred (by decide) hwidth⟩

theorem Token.issue?_isSome (key : Key) (u : User) {now : Instant} (hstart : 1970 ≤ now.date.year)
    (hend : now.date.year ≤ 9999) : ∃ jwt, issue? key u now = some jwt := by
  rw [issue?, Claims.ofSession?_eq_some u hstart hend]
  exact ⟨_, rfl⟩

/-- The built-in rule can be asked of a store in memory, whoever the bearer. -/
theorem Validator.validate_activeUser_external {key : Token.Key} {store : Store} {clock now : Int}
    {text : Option String} {op : Operation} {e : AuthError}
    (h : validate key store.probe clock now text op [Rule.activeUser] = .error e) :
    e.isInternal = false := by
  simp only [validate] at h
  split at h
  · cases h
    rfl
  · split at h
    · cases h
      rfl
    · next claims hdecode =>
      rcases store.checkRules_activeUser op claims with ⟨-, -, hrules⟩ | ⟨-, hrules⟩
      · rw [hrules] at h
        cases h
      · rw [hrules] at h
        cases h
        rfl

/-- Every stored password is well-formed. -/
def Store.WellHashed (s : Store) : Prop := ∀ u ∈ s.users, Password.WellFormed u.passwordHash

namespace Rpc

/-- A status that is not of a fault of the service. -/
def Status.External (status : Status) : Prop := status.code ≠ .internal

namespace Service

variable {key : Token.Key} {store : Store} {m : Moment}

theorem confined_external {now : Instant} (hhashes : store.WellHashed)
    (hstart : 1970 ≤ now.date.year) (hend : now.date.year ≤ 9999) :
    (inMemory key store).Confined now Status.External where
  message := by
    intro text
    exact Code.noConfusion
  bearer := by
    intro authorization op
    rcases authorize_cases key store now authorization op with ⟨-, h⟩ | ⟨-, message, h⟩
    · rw [h]
      exact fails_ok ()
    · rw [h]
      exact fails_error Code.noConfusion
  storage := by
    intro α r hplain
    cases r with
    | ok a => exact fails_ok a
    | error f =>
      cases f with
      | notFound => exact fails_error Code.noConfusion
      | alreadyExists what => exact fails_error Code.noConfusion
      | backend text => exact absurd rfl (hplain text)
  login := by
    intro username password
    rcases (inMemory key store).login_cases now username password with
      ⟨text, houtage, -⟩ | h | ⟨u, hu, ⟨e, hverify⟩, -⟩ | ⟨u, hu, hissue, -⟩ | ⟨jwt, h⟩
    · cases houtage
    · rw [h]
      exact fails_error Code.noConfusion
    · obtain ⟨right, hright⟩ := Password.verify_of_wellFormed (hhashes u hu) password
      cases hright.symm.trans hverify
    · obtain ⟨jwt, hjwt⟩ := Token.issue?_isSome key u hstart hend
      cases hjwt.symm.trans hissue
    · rw [h]
      exact fails_ok _

theorem handle_external (hhashes : store.WellHashed) (hfrom : 2025 ≤ m.now.date.year)
    (hto : m.now.date.year ≤ 2100) (authorization : Option Bytes) (c : Call) :
    Fails Status.External ((inMemory key store).handle m authorization c).answer :=
  handle_fails (confined_external hhashes (by omega) (by omega)) c

end Service

/-! ### On the wire -/

theorem codeHeader_ne_internal {c : Code} (h : c ≠ .internal) : codeHeader c ≠ codeHeader .internal := by
  cases c with
  | internal => exact absurd rfl h
  | _ => decide

/-- A response says that the service has failed. -/
def TellsInternal (r : Http.Response) : Prop :=
  codeHeader .internal ∈ r.headers.values "grpc-status" ∨
    codeHeader .internal ∈ r.trailers.values "grpc-status"

theorem not_tellsInternal_responded {answer : Except Status Reply} (h : Fails Status.External answer) :
    ¬ TellsInternal (responded answer) := by
  cases answer with
  | ok reply =>
    rintro (hmem | hmem)
    · cases hmem
    · cases List.mem_singleton.mp hmem
  | error status =>
    have hcode := codeHeader_ne_internal (h status rfl)
    have hvalues : (failedResponse status).headers.values "grpc-status" = [codeHeader status.code] := by
      unfold failedResponse Http.Headers.values
      split_ifs <;> rfl
    rintro (hmem | hmem)
    · rw [responded, hvalues] at hmem
      exact hcode (List.mem_singleton.mp hmem).symm
    · cases hmem

/-- **Nothing fails inside.** With everything in memory, well-formed stored passwords and a clock between 2025
and 2100, no call is answered with the code `internal`, whatever its authorisation and its message, nor is a
request that carries one, whatever its headers. No place where the code is made is reached: the built-in rule
can be asked, the store has no failures but its own, every stored password can be checked, and a token can be
written for every user. -/
theorem nothing_fails_inside {key : Token.Key} {store : Store} {queue : Queue} {m : Moment}
    (hhashes : store.WellHashed) (hfrom : 2025 ≤ m.now.date.year) (hto : m.now.date.year ≤ 2100) :
    (∀ authorization c status,
      ((Server.inMemory key store queue).call m authorization c).1 = .error status →
        status.code ≠ .internal) ∧
    (∀ (q : Http.Request) (method : Method) (c : Call), Method.ofPath? q.path = some method →
      readCall method q.body = .ok c →
      ¬ TellsInternal (exchange m q (Server.inMemory key store queue)).1) ∧
    (∀ text op e, Validator.validate key store.probe m.now.unixSeconds m.now.unixSeconds text op
      [Rule.activeUser] = .error e → e.isInternal = false) ∧
    (∀ c id text, store.create c ≠ .error (.backend text) ∧
      store.update c m.stored ≠ .error (.backend text) ∧ store.delete id ≠ .error (.backend text) ∧
      store.get id ≠ .error (.backend text)) ∧
    (∀ u ∈ store.users, ∀ password, ∃ right, Password.verify password u.passwordHash = .ok right) ∧
    ∀ u : User, ∃ jwt, Token.issue? key u m.now = some jwt := by
  have hcall : ∀ authorization c,
      Fails Status.External ((Server.inMemory key store queue).call m authorization c).1 := fun a c =>
    Service.handle_external hhashes hfrom hto a c
  refine ⟨hcall, ?_, ?_, ?_, ?_, ?_⟩
  · intro q method c hpath hbody
    rw [exchange_of_readCall m _ hpath hbody]
    exact not_tellsInternal_responded (hcall _ c)
  · intro text op e h
    exact Validator.validate_activeUser_external h
  · intro c id text
    exact ⟨store.plain_create c text, store.plain_update c m.stored text, store.plain_delete id text,
      store.plain_get id text⟩
  · intro u hu password
    exact Password.verify_of_wellFormed (hhashes u hu) password
  · intro u
    exact Token.issue?_isSome key u (by omega) (by omega)

/-- Whoever can log in at all meets no fault inside; a user without a password does. -/
theorem ada_meets_no_fault :
    (∀ password status, ((Server.inMemory sampleKey { users := [adasRecord] } sampleServer.queue).call
      sampleMoment none (.login "ada" password)).1 = .error status → status.code ≠ .internal) ∧
    (sampleServer.call sampleMoment none (.login "ada" "secret")).1 =
      .error (.internal "unable to verify credentials") := by
  have hhashes : Store.WellHashed { users := [adasRecord] } := by
    intro u hu
    cases List.mem_singleton.mp hu
    have hhash : Password.store "secret" 1 [] = .ok adasHash :=
      Password.store_eq_ok_iff.mpr ⟨by decide, by decide, rfl⟩
    exact Password.wellFormed_store (by decide) hhash
  refine ⟨?_, by decide +kernel⟩
  intro password
  exact (nothing_fails_inside hhashes (by decide) (by decide)).1 none (.login "ada" password)

/-! ### Runs -/

theorem Change.users_of_apply {ch : Change} {store store' : Store} (h : ch.apply store = .ok store') :
    store'.users = store.users := by
  rw [ch.apply_eq] at h
  obtain ⟨new, hnew, hnames⟩ := Store.users_apply h
  have hnone : new = [] := by
    cases ch <;> exact List.map_eq_nil_iff.mp hnames
  rw [hnew, hnone, List.append_nil]

theorem Service.users_handle (s : Service) (m : Moment) (authorization : Option Bytes) (c : Call) :
    (s.handle m authorization c).store.users = s.store.users := by
  rcases s.handle_store m authorization c with ⟨ch, hcommits, -⟩ | ⟨hstore, -⟩
  · exact Change.users_of_apply hcommits.taken
  · rw [hstore]

theorem Service.wellHashed_handle {key : Token.Key} {store : Store} (m : Moment)
    (authorization : Option Bytes) (c : Call) (h : store.WellHashed) :
    ((inMemory key store).handle m authorization c).store.WellHashed := by
  intro u hu
  rw [users_handle] at hu
  exact h u hu

/-- Calls leave the stored passwords as they are, so that nothing fails inside at any turn of a server. -/
theorem runs_do_not_fail_inside {key : Token.Key} {store : Store} {queue : Queue} {inputs : List Input}
    {t : Turn} (hhashes : store.WellHashed) (ht : t ∈ (Server.inMemory key store queue).turns inputs)
    (hfrom : 2025 ≤ t.moment.now.date.year) (hto : t.moment.now.date.year ≤ 2100) :
    Fails Status.External t.answer := by
  obtain ⟨store', queue', hbefore, hhashes'⟩ :=
    Server.mem_turns_of_preserved Service.wellHashed_handle hhashes ht
  rw [Turn.answer_eq, hbefore]
  exact Service.handle_external hhashes' hfrom hto t.authorization t.call

end Rpc

end CompanyRegistry
