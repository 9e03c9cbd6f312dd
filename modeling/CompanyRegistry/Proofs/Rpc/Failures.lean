import CompanyRegistry.Rpc.Service
import Mathlib.Tactic.SplitIfs

/-!
# How calls fail

What can be said of every status that a call fails with is settled where statuses are made: at the check of the
bearer, at the storage, at the login, and at a message that is no good. A condition that holds there
(`Service.Confined`) holds of whatever status any call is answered with (`Service.handle_fails`).

A status says by its code that a call has failed, but nothing in its type keeps the code `ok` out of it. No
call is answered with such a status (`handle_coded`), so a failure is never taken for a success where only
codes are looked at, as in the responses of the JSON side.
-/

namespace CompanyRegistry

/-! ### Failures of the store -/

namespace Store

variable {α : Type} (s : Store) (c : Company) (id : Company.Id) (now : Instant)

/-- A result is not the failure of what lies behind the store. -/
def Plain (r : Except Failure α) : Prop := ∀ text, r ≠ .error (.backend text)

theorem plain_ok (a : α) : Plain (.ok a) := by
  intro text h
  cases h

theorem plain_create : Plain (s.create c) := by
  intro text h
  unfold create at h
  split_ifs at h <;> cases h

theorem plain_update : Plain (s.update c now) := by
  intro text h
  unfold update at h
  split_ifs at h
  · cases h
  · split at h
    · cases h
    · cases h

theorem plain_delete : Plain (s.delete id) := by
  intro text h
  unfold delete at h
  split at h
  · cases h
  · cases h

theorem plain_get : Plain (s.get id) := by
  intro text h
  unfold get at h
  split at h
  · cases h
  · cases h

end Store

namespace Rpc

/-! ### Conditions on statuses -/

/-- A result that is an error has a status with a property. -/
def Fails {α : Type} (P : Status → Prop) (x : Except Status α) : Prop :=
  ∀ status, x = .error status → P status

section
variable {ε α β : Type} {P : Status → Prop}

theorem fails_ok (a : α) : Fails P (.ok a : Except Status α) := by
  intro status h
  cases h

theorem fails_error {status : Status} (h : P status) : Fails P (.error status : Except Status α) := by
  intro status' h'
  cases h'
  exact h

theorem Fails.bind {x : Except Status α} {f : α → Except Status β} (hx : Fails P x)
    (hf : ∀ a, Fails P (f a)) : Fails P (x >>= f) := by
  cases x with
  | ok a => exact hf a
  | error status => exact fails_error (hx status rfl)

theorem fails_mapError {f : ε → Status} (hf : ∀ e, P (f e)) (x : Except ε α) :
    Fails P (x.mapError f) := by
  cases x with
  | ok a => exact fails_ok a
  | error e => exact fails_error (hf e)

end

/-! ### The steps of the calls -/

namespace Service

variable (s : Service) (m : Moment) (authorization : Option Bytes)

/-- A login is answered in one of four ways, unless the users are out of order. -/
theorem login_cases (now : Instant) (username password : String) :
    (∃ text, s.outage.users = some text ∧
      s.login now username password = .error (.ofFailure (.backend text))) ∨
    s.login now username password = .error refusedLogin ∨
    (∃ u ∈ s.store.users, (∃ e, Password.verify password u.passwordHash = .error e) ∧
      s.login now username password = .error (.internal "unable to verify credentials")) ∨
    (∃ u ∈ s.store.users, Token.issue? s.key u now = none ∧
      s.login now username password = .error (.internal "unable to issue token")) ∨
    ∃ jwt, s.login now username password = .ok (.token jwt) := by
  simp only [login]
  cases s.outage.users with
  | some text => exact Or.inl ⟨text, rfl, rfl⟩
  | none =>
    refine Or.inr ?_
    cases hfind : s.store.findUser? username with
    | none => exact Or.inl rfl
    | some u =>
      have hmem : u ∈ s.store.users := List.mem_of_find?_eq_some hfind
      simp only [fromStorage, Except.mapError, bind, Except.bind]
      cases hverify : Password.verify password u.passwordHash with
      | error e => exact Or.inr (Or.inl ⟨u, hmem, ⟨e, hverify⟩, rfl⟩)
      | ok right =>
        cases right with
        | false => exact Or.inl rfl
        | true =>
          refine Or.inr (Or.inr ?_)
          cases hissue : Token.issue? s.key u now with
          | none => exact Or.inl ⟨u, hmem, hissue, rfl⟩
          | some jwt => exact Or.inr ⟨jwt, rfl⟩

/-- A condition holds of every status that is made where calls fail. -/
structure Confined (now : Instant) (P : Status → Prop) : Prop where
  message : ∀ text, P (.invalidArgument text)
  bearer : ∀ authorization op, Fails P (s.authorize now authorization op)
  storage : ∀ {α : Type} {r : Except Store.Failure α}, Store.Plain r →
    Fails P (fromStorage s.outage.companies r)
  login : ∀ username password, Fails P (s.login now username password)

section
variable {s} {m} {authorization} {P : Status → Prop}

theorem requireRecord_fails (h : ∀ text, P (.invalidArgument text)) (company : Option Record) :
    Fails P (requireRecord company) := by
  cases company with
  | none => exact fails_error (h _)
  | some r => exact fails_ok r

theorem readId_fails (h : ∀ text, P (.invalidArgument text)) (text : String) :
    Fails P (readId text) :=
  fails_mapError (fun _ => h _) _

theorem readNewId_fails (h : ∀ text, P (.invalidArgument text)) (fresh : Company.Id)
    (text : String) : Fails P (readNewId fresh text) := by
  unfold readNewId
  split_ifs
  · exact fails_ok fresh
  · exact readId_fails h text

theorem readKind_fails (h : ∀ text, P (.invalidArgument text)) (n : Int32) :
    Fails P (readKind n) :=
  fails_mapError (fun _ => h _) _

theorem readCompany_fails (h : ∀ text, P (.invalidArgument text)) (r : Record) (id : Company.Id)
    (now : Instant) : Fails P (readCompany r id now) := by
  apply (readKind_fails h r.kind).bind
  intro kind
  cases kind with
  | none => exact fails_error (h _)
  | some kind => exact fails_mapError (fun _ => h _) _

variable (h : s.Confined m.now P)
include h

theorem create_fails (company : Option Record) : Fails P (s.create m authorization company) := by
  apply (h.bearer authorization .create).bind
  intro _
  apply (requireRecord_fails h.message company).bind
  intro r
  apply (readNewId_fails h.message m.fresh r.id).bind
  intro id
  apply (readCompany_fails h.message r id m.now).bind
  intro c
  apply (h.storage (s.store.plain_create c)).bind
  intro store
  exact fails_ok _

theorem update_fails (company : Option Record) : Fails P (s.update m authorization company) := by
  apply (h.bearer authorization .update).bind
  intro _
  apply (requireRecord_fails h.message company).bind
  intro r
  apply (readId_fails h.message r.id).bind
  intro id
  apply (readCompany_fails h.message r id m.now).bind
  intro c
  apply (h.storage (s.store.plain_update c m.stored)).bind
  intro store
  exact fails_ok _

theorem delete_fails (text : String) : Fails P (s.delete m authorization text) := by
  apply (h.bearer authorization .delete).bind
  intro _
  apply (readId_fails h.message text).bind
  intro id
  apply (h.storage (s.store.plain_delete id)).bind
  intro store
  exact fails_ok _

theorem get_fails (text : String) : Fails P (s.get text) := by
  apply (readId_fails h.message text).bind
  intro id
  apply (h.storage (s.store.plain_get id)).bind
  intro c
  exact fails_ok _

theorem list_fails (q : Query) : Fails P (s.list q) := by
  apply Fails.bind
  · apply (readKind_fails h.message q.kind).bind
    intro kind
    exact fails_ok _
  · intro f
    apply (h.storage (Store.plain_ok (s.store.list f))).bind
    intro cs
    exact fails_ok _

omit h in
theorem committed_fails {result : Except Status (Reply × Store × Event)} (h : Fails P result) :
    Fails P (s.committed result).answer := by
  cases result with
  | ok made => exact fails_ok made.1
  | error status => exact fails_error (h status rfl)

/-- What holds of every status made where calls fail holds of the status that a call fails with. -/
theorem handle_fails (c : Call) : Fails P (s.handle m authorization c).answer := by
  cases c with
  | login username password => exact h.login username password
  | create company => exact committed_fails (create_fails h company)
  | get text => exact get_fails h text
  | update company => exact committed_fails (update_fails h company)
  | delete text => exact committed_fails (delete_fails h text)
  | list q => exact list_fails h q

end

end Service

/-! ### Codes of failures -/

/-- A result that is an error bears the code of one. -/
def Coded {α : Type} (x : Except Status α) : Prop := ∀ status, x = .error status → status.code ≠ .ok

theorem code_ofAuthError (e : AuthError) : (Status.ofAuthError e).code ≠ .ok := by
  unfold Status.ofAuthError
  split_ifs <;> exact Code.noConfusion

theorem code_ofFailure (f : Store.Failure) : (Status.ofFailure f).code ≠ .ok := by
  cases f <;> exact Code.noConfusion

namespace Service

theorem confined_coded (s : Service) (now : Instant) :
    s.Confined now fun status => status.code ≠ .ok where
  message := by
    intro text
    exact Code.noConfusion
  bearer := by
    intro authorization op
    simp only [authorize]
    split
    · exact fails_ok ()
    · exact fails_error (code_ofAuthError _)
  storage := by
    intro α r hplain
    cases s.outage.companies with
    | none => exact fails_mapError code_ofFailure r
    | some text => exact fails_error (code_ofFailure _)
  login := by
    intro username password
    rcases s.login_cases now username password with
      ⟨text, -, h⟩ | h | ⟨u, -, -, h⟩ | ⟨u, -, -, h⟩ | ⟨jwt, h⟩
    · rw [h]
      exact fails_error (code_ofFailure _)
    · rw [h]
      exact fails_error Code.noConfusion
    · rw [h]
      exact fails_error Code.noConfusion
    · rw [h]
      exact fails_error Code.noConfusion
    · rw [h]
      exact fails_ok _

/-- No call fails with the code of a success. -/
theorem handle_coded (s : Service) (m : Moment) (authorization : Option Bytes) (c : Call) :
    Coded (s.handle m authorization c).answer :=
  handle_fails (s.confined_coded m.now) c

end Service

end Rpc

end CompanyRegistry
