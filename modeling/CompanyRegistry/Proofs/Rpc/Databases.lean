import CompanyRegistry.Proofs.Rpc.Turns
import CompanyRegistry.Proofs.Store.Rows

/-!
# Calls over a database

What a call that writes a company comes to when a database keeps the companies instead of the store in memory. If
the company has a row, its statement is given to the pool, and the call fails inside only if the database does
(`answer_eq_internal_iff`). If it has none, the call fails inside at once, as any call does whose storage is out of
order (`handle_failing`). The limits of the register say nothing about the column of the employees, so that both
happen to companies that keep them (`companies_are_sent_if_they_fit`); the store in memory takes them all alike
(`isOk_apply_employees`).
-/

namespace CompanyRegistry

/-! ### A storage of companies that is out of order -/

namespace Rpc.Service

/-- The same service with a storage of companies that fails with this text. -/
def failing (s : Service) (text : String) : Service :=
  { s with outage := { s.outage with companies := some text } }

/-- A call that would be answered well is answered `internal`, and changes and tells nothing. -/
theorem handle_failing {s : Service} {m : Moment} {authorization : Option Bytes} {call : Call} {ch : Change}
    {store' : Store} (h : s.Commits m authorization call ch store') (text : String) :
    (s.failing text).handle m authorization call = ⟨.error (.internal "storage error"), s.store, none⟩ := by
  obtain ⟨hpermitted, hasked, -, -⟩ := h
  -- who may call is asked of the users, which are in order
  change (s.failing text).authorize m.now authorization ch.operation = .ok () at hpermitted
  cases hasked with
  | create hid hkind hlimits =>
    have hread := readCompany_eq_ok_iff.mpr ⟨_, hkind, hlimits, rfl⟩
    simp only [Change.operation] at hpermitted
    simp only [handle, create, hpermitted, requireRecord, readNewId_eq_ok_iff.mpr hid, hread, bind,
      Except.bind]
    rfl
  | update hid hkind hlimits =>
    have hread := readCompany_eq_ok_iff.mpr ⟨_, hkind, hlimits, rfl⟩
    simp only [Change.operation] at hpermitted
    simp only [handle, update, hpermitted, requireRecord, readId_eq_ok_iff.mpr hid, hread, bind, Except.bind]
    rfl
  | delete hid =>
    simp only [Change.operation] at hpermitted
    simp only [handle, delete, hpermitted, readId_eq_ok_iff.mpr hid, bind, Except.bind]
    rfl

end Rpc.Service

namespace Database

open Rpc

/-- The change of the register that an operation is for. -/
def Write.change (w : Write) (c : Company) (stored : Instant) : Change :=
  match w with
  | .create => .create c
  | .update => .update c stored

/-- Whether the store in memory takes a company does not depend on how many employees it has. -/
theorem isOk_apply_employees (w : Write) (s : Store) (c : Company) (stored : Instant) (n : UInt32) :
    ((w.change { c with employees := n } stored).apply s).isOk = ((w.change c stored).apply s).isOk := by
  cases w with
  | create =>
    simp only [Write.change, Change.apply, Store.create]
    split_ifs <;> rfl
  | update =>
    simp only [Write.change, Change.apply, Store.update]
    split_ifs
    · rfl
    · cases s.find? c.id <;> rfl

/-! ### Statuses -/

/-- An error that is the database's own affair: not that a row is missing or a unique value there already. -/
def QueryError.IsFault : QueryError → Prop
  | .rowNotFound => False
  | .refused code _ _ => code ≠ some uniqueViolation
  | .unanswered _ => True

/-- What a call is told that writes a company. -/
def answer {σ : Type} (pool : Pool σ) (w : Write) (c : Company) (db : σ) : Except Status Unit :=
  (write pool w c db).1.mapError .ofFailure

theorem ofFailure_failure_iff {operation : String} {e : QueryError} :
    Status.ofFailure (failure operation e) = .internal "storage error" ↔ e.IsFault := by
  cases e with
  | rowNotFound => simp [failure, Status.ofFailure, Status.internal, QueryError.IsFault]
  | refused code constraint text =>
    simp only [failure, QueryError.IsFault]
    split_ifs with hcode
    · simp [Status.ofFailure, Status.internal, hcode]
    · simp [Status.ofFailure, hcode]
  | unanswered text => simp [failure, failed, Status.ofFailure, QueryError.IsFault]

section
variable {σ : Type} {pool : Pool σ} {w : Write} {c : Company} {db : σ} {r : Row}

theorem outcome_eq_ok_iff {n : Nat} : w.outcome n = .ok () ↔ (w = .update → n ≠ 0) := by
  cases w with
  | create => simp [Write.outcome]
  | update =>
    simp only [Write.outcome]
    split_ifs with hnone <;> simp [hnone]

theorem outcome_ne_internal {n : Nat} :
    (w.outcome n).mapError Status.ofFailure ≠ .error (.internal "storage error") := by
  cases w with
  | create =>
    intro h
    cases h
  | update =>
    simp only [Write.outcome]
    split_ifs
    · simp [Except.mapError, Status.ofFailure, Status.internal]
    · intro h
      cases h

/-- What becomes of a company that has a row is up to the database. -/
theorem answer_of_row (h : row c = .ok r) : answer pool w c db =
    match (pool.execute (w.statement r) db).1 with
    | .error e => .error (.ofFailure (failure w.operation e))
    | .ok touched => (w.outcome touched).mapError .ofFailure := by
  rw [answer, write_of_row pool w db h]
  cases (pool.execute (w.statement r) db).1 <;> rfl

theorem answer_eq_ok_iff (h : row c = .ok r) : answer pool w c db = .ok () ↔
    ∃ n, (pool.execute (w.statement r) db).1 = .ok n ∧ (w = .update → n ≠ 0) := by
  rw [answer_of_row h]
  cases (pool.execute (w.statement r) db).1 with
  | error e => simp
  | ok n => simp [mapError_eq_ok_iff, outcome_eq_ok_iff]

theorem answer_eq_internal_iff (h : row c = .ok r) : answer pool w c db = .error (.internal "storage error") ↔
    ∃ e, (pool.execute (w.statement r) db).1 = .error e ∧ e.IsFault := by
  rw [answer_of_row h]
  cases (pool.execute (w.statement r) db).1 with
  | error e => simp [ofFailure_failure_iff]
  | ok n => simp [outcome_ne_internal]

theorem answer_of_not_fits (h : ¬ Fits c) : answer pool w c db = .error (.internal "storage error") := by
  rw [answer, write_of_not_fits pool w db h]
  rfl

end

/-- **Companies are sent if they fit.** For a company that keeps the limits of the register, and for creations and
updates alike:

* if its employees fit the column, it has a row, from which it is read back and which keeps the limits of the
  table. The pool is given the statement of this row, the call is answered well exactly if the statement has
  succeeded and an update has touched a row, and it fails inside exactly if the database has a fault of its own;
* if they do not fit, the pool is given nothing and the database stays as it is, whatever it is. Every call that a
  service in memory answers by writing this company is then answered `internal`, and changes and tells nothing;
* the store in memory makes no difference between the two: it takes the company with any number of employees if it
  takes it at all. -/
theorem companies_are_sent_if_they_fit {c : Company} (hlimits : c.check = .ok ()) (w : Write) :
    (c.employees.toNat < 2 ^ 31 → ∃ r, row c = .ok r ∧ r.company = .ok c ∧ r.Admitted ∧
      ∀ (σ : Type) (pool : Pool σ) (db : σ),
        (write pool w c db).2 = (pool.execute (w.statement r) db).2 ∧
        (answer pool w c db = .ok () ↔
          ∃ n, (pool.execute (w.statement r) db).1 = .ok n ∧ (w = .update → n ≠ 0)) ∧
        (answer pool w c db = .error (.internal "storage error") ↔
          ∃ e, (pool.execute (w.statement r) db).1 = .error e ∧ e.IsFault)) ∧
    (2 ^ 31 ≤ c.employees.toNat →
      (∀ (σ : Type) (pool : Pool σ) (db : σ),
        write pool w c db = (.error (.backend "employees_count out of range"), db) ∧
        answer pool w c db = .error (.internal "storage error")) ∧
      ∀ (s : Service) (m : Moment) (authorization : Option Bytes) (call : Call) (store' : Store),
        s.Commits m authorization call (w.change c m.stored) store' →
        (s.failing "employees_count out of range").handle m authorization call =
          ⟨.error (.internal "storage error"), s.store, none⟩) ∧
    ∀ (s : Store) (stored : Instant) (n : UInt32),
      ((w.change { c with employees := n } stored).apply s).isOk = ((w.change c stored).apply s).isOk := by
  refine ⟨?_, ?_, fun s => isOk_apply_employees w s c⟩
  · intro hfits
    obtain ⟨r, hr⟩ := exists_row_iff.mpr hfits
    refine ⟨r, hr, company_of_row hr, admitted_of_row hlimits hr, ?_⟩
    intro σ pool db
    refine ⟨?_, answer_eq_ok_iff hr, answer_eq_internal_iff hr⟩
    rw [write_of_row pool w db hr]
  · intro hlarge
    have hnot : ¬ Fits c := Nat.not_lt.mpr hlarge
    constructor
    · intro σ pool db
      exact ⟨write_of_not_fits pool w db hnot, answer_of_not_fits hnot⟩
    · intro s m authorization call store' hcommits
      exact Service.handle_failing hcommits _

/-! The company of the sample run, with as many employees as the column holds and with one more. The pool keeps the
statements that it is given, and each touches a row. -/

def acmeOf (employees : UInt32) : Company := { acme with employees := employees }

theorem check_acmeOf {n : UInt32} (hn : n ≠ 0) : (acmeOf n).check = .ok () := by
  have hacme : acme.check = .ok () := rfl
  obtain ⟨hblank, hname, hdescription, -⟩ := Company.check_eq_ok_iff.mp hacme
  exact Company.check_eq_ok_iff.mpr ⟨hblank, hname, hdescription, hn⟩

def recorder : Pool (List Statement) := ⟨fun st sent => (.ok 1, sent ++ [st])⟩

def vastCall : Call := .create (some { name := "Acme", employees := 2147483648, kind := 1 })

theorem vastCall_commits :
    (Service.inMemory sampleKey { users := [ada] }).Commits sampleMoment adasTurn.authorization vastCall
      (Write.create.change (acmeOf 2147483648) sampleMoment.stored)
      { companies := [acmeOf 2147483648], users := [ada] } := by
  apply Service.commits_inMemory_iff.mpr
  exact ⟨ada_mayChange List.mem_cons_self ⟨by decide, by decide⟩, .create (Or.inl ⟨rfl, rfl⟩) rfl rfl, rfl⟩

/-- One employee more than the column holds, and nothing is sent. -/
theorem widest_company_is_sent :
    (acmeOf 2147483647).check = .ok () ∧
    (∃ r, row (acmeOf 2147483647) = .ok r ∧ r.company = .ok (acmeOf 2147483647) ∧ r.Admitted ∧
      (write recorder .create (acmeOf 2147483647) []).2 = [Write.create.statement r]) ∧
    answer recorder .update (acmeOf 2147483647) [] = .ok () ∧
    (acmeOf 2147483648).check = .ok () ∧
    write recorder .create (acmeOf 2147483648) [] = (.error (.backend "employees_count out of range"), []) ∧
    ((Service.inMemory sampleKey { users := [ada] }).handle sampleMoment adasTurn.authorization vastCall).answer =
      .ok (.created sampleMoment.fresh.text) ∧
    (((Service.inMemory sampleKey { users := [ada] }).failing "employees_count out of range").handle sampleMoment
      adasTurn.authorization vastCall).answer = .error (.internal "storage error") := by
  have hwidest : (acmeOf 2147483647).check = .ok () := check_acmeOf (by decide)
  obtain ⟨hcreated, -⟩ := companies_are_sent_if_they_fit hwidest .create
  obtain ⟨hupdated, -⟩ := companies_are_sent_if_they_fit hwidest .update
  have hwider : (acmeOf 2147483648).check = .ok () := check_acmeOf (by decide)
  obtain ⟨-, hvast, -⟩ := companies_are_sent_if_they_fit hwider .create
  obtain ⟨r, hr, hback, hadmitted, hsent⟩ := hcreated (by decide)
  obtain ⟨r', -, -, -, hsent'⟩ := hupdated (by decide)
  obtain ⟨hunsent, hfails⟩ := hvast (by decide)
  refine ⟨hwidest, ⟨r, hr, hback, hadmitted, (hsent _ recorder []).1⟩, ?_, hwider,
    (hunsent _ recorder []).1, ?_, ?_⟩
  · exact (hsent' _ recorder []).2.1.mpr ⟨1, rfl, fun _ => Nat.one_ne_zero⟩
  · rw [Service.handle_of_commits vastCall_commits]
    rfl
  · rw [hfails _ _ _ _ _ vastCall_commits]

/-- Not every company that keeps the limits of the register has a row, nor is every one that the store in memory
takes spared a failure inside by a database that has no fault: a company of two thousand million employees is not. -/
theorem a_vast_company_has_no_row :
    (¬ ∀ c : Company, c.check = .ok () → ∃ r, row c = .ok r) ∧
    ¬ ∀ (c : Company) (w : Write) (s : Store) (stored : Instant), c.check = .ok () →
      ((w.change c stored).apply s).isOk →
      ∀ (σ : Type) (pool : Pool σ) (db : σ),
        (∀ st db' e, (pool.execute st db').1 = .error e → ¬ e.IsFault) →
        answer pool w c db ≠ .error (.internal "storage error") := by
  have hlimits : (acmeOf 2147483648).check = .ok () := check_acmeOf (by decide)
  have hnot : ¬ Fits (acmeOf 2147483648) := by
    unfold Fits
    decide
  constructor
  · intro hrows
    exact hnot (exists_row_iff.mp (hrows _ hlimits))
  · intro hspared
    have hfaultless : ∀ st sent e, (recorder.execute st sent).1 = .error e → ¬ e.IsFault := by
      intro st sent e herror
      cases herror
    exact hspared _ .create .empty noon hlimits rfl _ recorder [] hfaultless (answer_of_not_fits hnot)

end Database

end CompanyRegistry
