import CompanyRegistry.Store.Basic
import Mathlib.Data.List.Basic

/-!
# Commands to the store

A `Command` is anything the store can be told to do, the clock it reads included. `Store.run` carries out
a list of commands from a store on; a command that is refused leaves the store as it was, and
`Store.taken` are those that are not refused. For each of the four operations there is

* `…_eq_ok_iff`: when it is taken, and what store it gives;
* `find?_…`: which company is found after it under any identifier.
-/

namespace CompanyRegistry.Store

/-- What a store can be told to do. -/
inductive Command
  | create (c : Company)
  | update (c : Company) (now : Instant)
  | delete (id : Company.Id)
  | createUser (username passwordHash : String) (isAdmin : Bool) (sessionHours : Int32)
      (now : Instant)

/-- The store that a command gives, or why it is refused. -/
def Command.apply (s : Store) : Command → Except Failure Store
  | .create c => s.create c
  | .update c now => s.update c now
  | .delete id => s.delete id
  | .createUser username passwordHash isAdmin sessionHours now =>
    (s.createUser username passwordHash isAdmin sessionHours now).map (·.2)

/-- The store after a command, taken or refused. -/
def after (s : Store) (cmd : Command) : Store :=
  match cmd.apply s with
  | .ok s' => s'
  | .error _ => s

/-- The store after commands, one after another. -/
def run (s : Store) : List Command → Store
  | [] => s
  | cmd :: cmds => (s.after cmd).run cmds

/-- Those of some commands that are taken when they are given one after another. -/
def taken (s : Store) : List Command → List Command
  | [] => []
  | cmd :: cmds =>
    if (cmd.apply s).isOk then cmd :: (s.after cmd).taken cmds else (s.after cmd).taken cmds

variable {s s' : Store} {cmd : Command}

theorem after_of_ok (h : cmd.apply s = .ok s') : s.after cmd = s' := by
  rw [after, h]

theorem after_of_error {e : Failure} (h : cmd.apply s = .error e) : s.after cmd = s := by
  rw [after, h]

theorem run_append (s : Store) (cmds more : List Command) :
    s.run (cmds ++ more) = (s.run cmds).run more := by
  induction cmds generalizing s with
  | nil => rfl
  | cons cmd cmds ih => exact ih (s.after cmd)

theorem taken_append (s : Store) (cmds more : List Command) :
    s.taken (cmds ++ more) = s.taken cmds ++ (s.run cmds).taken more := by
  induction cmds generalizing s with
  | nil => rfl
  | cons cmd cmds ih =>
    simp only [List.cons_append, taken, run, ih]
    split <;> rfl

/-- What the store is and which commands were taken after one more of them. -/
theorem run_snoc_cases (s : Store) (cmds : List Command) (cmd : Command) :
    (∃ s', cmd.apply (s.run cmds) = .ok s' ∧ s.run (cmds ++ [cmd]) = s' ∧
      s.taken (cmds ++ [cmd]) = s.taken cmds ++ [cmd]) ∨
    (s.run (cmds ++ [cmd]) = s.run cmds ∧ s.taken (cmds ++ [cmd]) = s.taken cmds) := by
  rw [run_append, taken_append]
  cases h : cmd.apply (s.run cmds) with
  | ok s' => exact Or.inl ⟨s', rfl, after_of_ok h, by simp [taken, h, Except.isOk, Except.toBool]⟩
  | error e => exact Or.inr ⟨after_of_error h, by simp [taken, h, Except.isOk, Except.toBool]⟩

/-- What holds of a store and is kept by every command that is taken holds after any commands. -/
theorem run_induction {P : Store → Prop} (hs : P s)
    (hstep : ∀ {s s' : Store} {cmd : Command}, P s → cmd.apply s = .ok s' → P s')
    (cmds : List Command) : P (s.run cmds) := by
  induction cmds generalizing s with
  | nil => exact hs
  | cons cmd cmds ih =>
    apply ih
    cases h : cmd.apply s with
    | ok s' =>
      rw [after_of_ok h]
      exact hstep hs h
    | error e =>
      rw [after_of_error h]
      exact hs

/-! ### When an operation is taken -/

variable {c : Company} {id : Company.Id} {now : Instant}

theorem find?_eq_none_iff : s.find? id = none ↔ ∀ c ∈ s.companies, c.id ≠ id := by
  simp [find?]

theorem get_eq_ok_iff :
    s.get id = .ok c ↔ s.find? id = some c := by
  unfold get
  cases s.find? id <;> simp

theorem get_eq_notFound_iff :
    s.get id = .error .notFound ↔ s.find? id = none := by
  unfold get
  cases s.find? id <;> simp

theorem id_of_find? (h : s.find? id = some c) : c.id = id := by
  simpa using List.find?_some h

theorem mem_of_find? (h : s.find? id = some c) : c ∈ s.companies :=
  List.mem_of_find?_eq_some h

theorem create_eq_ok_iff :
    s.create c = .ok s' ↔ s.find? c.id = none ∧ (∀ other ∈ s.companies, other.name ≠ c.name) ∧
      s' = { s with companies := s.companies ++ [c] } := by
  unfold create
  split_ifs with hid hname
  · obtain ⟨old, hold⟩ := Option.isSome_iff_exists.mp hid
    simp [hold]
  · obtain ⟨other, hother, heq⟩ := List.any_eq_true.mp hname
    simp only [false_iff]
    rintro ⟨-, hnew, -⟩
    exact hnew other hother (of_decide_eq_true heq)
  · have hnew : ∀ other ∈ s.companies, other.name ≠ c.name := by simpa using hname
    simp only [Option.not_isSome_iff_eq_none.mp hid, Except.ok.injEq, true_and]
    exact ⟨fun h => ⟨hnew, h.symm⟩, fun h => h.2.symm⟩

theorem update_eq_ok_iff :
    s.update c now = .ok s' ↔
      (∀ other ∈ s.companies, other.name = c.name → other.id = c.id) ∧
      (∃ old, s.find? c.id = some old) ∧
      s' = { s with companies :=
        s.companies.map fun old => if old.id = c.id then revised old c now else old } := by
  unfold update
  split_ifs with hname
  · obtain ⟨other, hother, heq⟩ := List.any_eq_true.mp hname
    obtain ⟨hid, hsame⟩ := of_decide_eq_true heq
    simp only [false_iff]
    rintro ⟨hnew, -⟩
    exact hid (hnew other hother hsame)
  · have hnew : ∀ other ∈ s.companies, other.name = c.name → other.id = c.id := by
      intro other hother hsame
      by_contra hid
      exact hname (List.any_eq_true.mpr ⟨other, hother, decide_eq_true ⟨hid, hsame⟩⟩)
    cases hfind : s.find? c.id with
    | none => simp
    | some old =>
      simp only [Except.ok.injEq]
      exact ⟨fun h => ⟨hnew, ⟨old, rfl⟩, h.symm⟩, fun h => h.2.2.symm⟩

theorem delete_eq_ok_iff :
    s.delete id = .ok s' ↔ (∃ old, s.find? id = some old) ∧
      s' = { s with companies := s.companies.filter (·.id ≠ id) } := by
  unfold delete
  cases hfind : s.find? id with
  | none => simp
  | some old => simp [eq_comm]

theorem createUser_eq_ok_iff {username passwordHash : String} {isAdmin : Bool}
    {sessionHours : Int32} :
    (Command.createUser username passwordHash isAdmin sessionHours now).apply s = .ok s' ↔
      (∀ u ∈ s.users, u.username ≠ username) ∧
      s' = { s with users := s.users ++
        [⟨s.nextUserId, username, passwordHash, isAdmin, sessionHours, now, now⟩] } := by
  have hnone : s.findUser? username = none ↔ ∀ u ∈ s.users, u.username ≠ username := by
    simp [findUser?]
  simp only [Command.apply, createUser, ← hnone]
  cases hfind : s.findUser? username with
  | none => simp [Except.map, eq_comm]
  | some u => simp [Except.map]

/-! ### Which companies are found afterwards -/

theorem find?_create (h : s.create c = .ok s') (id : Company.Id) :
    s'.find? id = if c.id = id then some c else s.find? id := by
  obtain ⟨hnew, -, rfl⟩ := create_eq_ok_iff.mp h
  unfold find? at hnew ⊢
  rw [List.find?_append]
  by_cases hid : c.id = id
  · subst hid
    simp [hnew]
  · simp [hid]

theorem id_replaced (c : Company) (now : Instant) (old : Company) :
    (if old.id = c.id then revised old c now else old).id = old.id := by
  split_ifs with h
  · exact h.symm
  · rfl

/-- A company is replaced under its own identifier, so the search for one passes over the replacement. -/
theorem decide_id_replaced (c : Company) (now : Instant) (id : Company.Id) :
    ((fun old => decide (old.id = id)) ∘
      fun old : Company => if old.id = c.id then revised old c now else old) =
      fun old => decide (old.id = id) := by
  funext old
  simp only [Function.comp_apply, id_replaced]

theorem find?_update (h : s.update c now = .ok s') (id : Company.Id) :
    s'.find? id = if c.id = id then (s.find? id).map (revised · c now) else s.find? id := by
  obtain ⟨-, -, rfl⟩ := update_eq_ok_iff.mp h
  unfold find?
  rw [List.find?_map, decide_id_replaced]
  cases hfind : s.companies.find? fun old => decide (old.id = id) with
  | none => simp
  | some old =>
    have hold : old.id = id := id_of_find? hfind
    by_cases hid : c.id = id
    · simp [hold, hid]
    · simp [hold, hid, Ne.symm hid]

theorem find?_delete {deleted : Company.Id} (h : s.delete deleted = .ok s') (id : Company.Id) :
    s'.find? id = if deleted = id then none else s.find? id := by
  obtain ⟨-, rfl⟩ := delete_eq_ok_iff.mp h
  unfold find?
  rw [List.find?_filter]
  by_cases hid : deleted = id
  · subst hid
    simp
  · rw [if_neg hid]
    congr 1
    funext old
    by_cases hold : old.id = id
    · simp [hold, Ne.symm hid]
    · simp [hold]

end CompanyRegistry.Store
