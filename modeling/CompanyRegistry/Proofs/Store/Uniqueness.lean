import CompanyRegistry.Proofs.Store.Commands
import Mathlib.Algebra.Group.Int.Defs
import Mathlib.Algebra.Group.Nat.Defs
import Mathlib.Data.List.Induction
import Mathlib.Data.List.Nodup

/-!
# Nothing is kept twice

`Orderly` is what every store that commands can lead to has: identifiers and names of companies and names
of users all differ, and users are numbered from one in the order in which they came. What it says of
companies needs nothing of the users (`Distinct`). Names are not what companies are found by, so their
difference rests on the checks of `create` and `update` alone; of these `update` has to pass over the
company that it replaces (`names_update_nodup`).

`records_are_unique` says this of every sequence of commands from the empty store on.
-/

namespace CompanyRegistry.Store

/-- Nothing is kept twice. Numbers are whole numbers of 64 bits, of which no store can use up the positive
ones. -/
structure Orderly (s : Store) : Prop where
  ids : (s.companies.map (·.id)).Nodup
  names : (s.companies.map (·.name)).Nodup
  usernames : (s.users.map (·.username)).Nodup
  numbers : s.users.length < 2 ^ 63 →
    s.users.map (·.id.toInt) = (List.range' 1 s.users.length).map Int.ofNat

/-- No company is kept twice. -/
structure Distinct (s : Store) : Prop where
  ids : (s.companies.map (·.id)).Nodup
  names : (s.companies.map (·.name)).Nodup

/-! ### Companies -/

theorem find?_eq_some_iff {s : Store} (hids : (s.companies.map (·.id)).Nodup) {id : Company.Id}
    {c : Company} : s.find? id = some c ↔ c ∈ s.companies ∧ c.id = id := by
  constructor
  · intro h
    exact ⟨mem_of_find? h, id_of_find? h⟩
  · rintro ⟨hmem, rfl⟩
    cases hfind : s.find? c.id with
    | none => exact absurd rfl (find?_eq_none_iff.mp hfind c hmem)
    | some c' =>
      have hsame : c' = c :=
        List.inj_on_of_nodup_map hids (mem_of_find? hfind) hmem (id_of_find? hfind)
      rw [hsame]

theorem map_append_nodup {α β : Type} {f : α → β} {l : List α} {a : α} (h : (l.map f).Nodup)
    (hnew : ∀ b ∈ l, f b ≠ f a) : ((l ++ [a]).map f).Nodup := by
  rw [List.map_append, List.map_singleton, List.nodup_append]
  refine ⟨h, List.nodup_singleton _, ?_⟩
  intro x hx y hy
  obtain ⟨b, hb, rfl⟩ := List.mem_map.mp hx
  rw [List.mem_singleton.mp hy]
  exact hnew b hb

variable {c : Company} {now : Instant} {companies : List Company}

theorem ids_update :
    (companies.map fun old => if old.id = c.id then revised old c now else old).map (·.id) =
      companies.map (·.id) := by
  rw [List.map_map]
  apply List.map_congr_left
  intro old _
  exact id_replaced c now old

theorem names_update_nodup (hids : (companies.map (·.id)).Nodup)
    (hnames : (companies.map (·.name)).Nodup)
    (hnew : ∀ other ∈ companies, other.name = c.name → other.id = c.id) :
    ((companies.map fun old => if old.id = c.id then revised old c now else old).map
      (·.name)).Nodup := by
  unfold List.Nodup at *
  rw [List.pairwise_map] at hids hnames
  rw [List.map_map, List.pairwise_map]
  refine (hids.and hnames).imp_of_mem ?_
  rintro a b ha hb ⟨hid, hname⟩
  by_cases ha' : a.id = c.id
  · have hb' : ¬ b.id = c.id := fun h => hid (ha'.trans h.symm)
    simpa [ha', hb', revised] using fun h : c.name = b.name => hb' (hnew b hb h.symm)
  · by_cases hb' : b.id = c.id
    · simpa [ha', hb', revised] using fun h : a.name = c.name => ha' (hnew a ha h)
    · simpa [ha', hb'] using hname

theorem Distinct.apply {s s' : Store} {cmd : Command} (hs : s.Distinct)
    (h : cmd.apply s = .ok s') : s'.Distinct := by
  cases cmd with
  | create c =>
    obtain ⟨hid, hname, rfl⟩ := create_eq_ok_iff.mp h
    exact ⟨map_append_nodup hs.ids (find?_eq_none_iff.mp hid), map_append_nodup hs.names hname⟩
  | update c now =>
    obtain ⟨hname, -, rfl⟩ := update_eq_ok_iff.mp h
    refine ⟨?_, names_update_nodup hs.ids hs.names hname⟩
    rw [ids_update]
    exact hs.ids
  | delete id =>
    obtain ⟨-, rfl⟩ := delete_eq_ok_iff.mp h
    exact ⟨hs.ids.sublist (List.filter_sublist.map _),
      hs.names.sublist (List.filter_sublist.map _)⟩
  | createUser username passwordHash isAdmin sessionHours now =>
    obtain ⟨-, rfl⟩ := createUser_eq_ok_iff.mp h
    exact ⟨hs.ids, hs.names⟩

/-! ### Numbers of users -/

theorem foldl_greatest {users : List User} (hlength : users.length < 2 ^ 63)
    (hnumbers : users.map (·.id.toInt) = (List.range' 1 users.length).map Int.ofNat) :
    (users.foldl (fun n u => if n < u.id then u.id else n) (0 : Int64)).toInt = users.length := by
  induction users using List.reverseRecOn with
  | nil => rfl
  | append_singleton users u ih =>
    rw [List.length_append, List.length_singleton] at hlength hnumbers
    rw [List.range'_1_concat, List.map_append, List.map_append] at hnumbers
    obtain ⟨hbefore, hlast⟩ := List.append_inj' hnumbers rfl
    have hu : u.id.toInt = 1 + users.length := by simpa using hlast
    have hbelow := ih (by omega) hbefore
    rw [List.foldl_append]
    simp only [List.foldl_cons, List.foldl_nil, List.length_append, List.length_singleton]
    rw [if_pos (by rw [Int64.lt_iff_toInt_lt]; omega)]
    omega

theorem nextUserId_toInt {s : Store} (hlength : s.users.length + 1 < 2 ^ 63)
    (hnumbers : s.users.map (·.id.toInt) = (List.range' 1 s.users.length).map Int.ofNat) :
    s.nextUserId.toInt = 1 + s.users.length := by
  have hgreatest := foldl_greatest (by omega) hnumbers
  unfold nextUserId
  rw [Int64.toInt_add, hgreatest, Int64.toInt_one]
  rw [Int.bmod_eq_of_le (by omega) (by omega)]
  omega

/-! ### Every store that commands lead to -/

theorem empty_orderly : empty.Orderly where
  ids := List.nodup_nil
  names := List.nodup_nil
  usernames := List.nodup_nil
  numbers := fun _ => rfl

theorem Orderly.distinct {s : Store} (hs : s.Orderly) : s.Distinct := ⟨hs.ids, hs.names⟩

theorem Orderly.apply {s s' : Store} {cmd : Command} (hs : s.Orderly)
    (h : cmd.apply s = .ok s') : s'.Orderly := by
  obtain ⟨hids, hnames⟩ := hs.distinct.apply h
  cases cmd with
  | create c =>
    obtain ⟨-, -, rfl⟩ := create_eq_ok_iff.mp h
    exact { hs with ids := hids, names := hnames }
  | update c now =>
    obtain ⟨-, -, rfl⟩ := update_eq_ok_iff.mp h
    exact { hs with ids := hids, names := hnames }
  | delete id =>
    obtain ⟨-, rfl⟩ := delete_eq_ok_iff.mp h
    exact { hs with ids := hids, names := hnames }
  | createUser username passwordHash isAdmin sessionHours now =>
    obtain ⟨hname, rfl⟩ := createUser_eq_ok_iff.mp h
    refine { hs with usernames := map_append_nodup hs.usernames hname, numbers := ?_ }
    intro hlength
    rw [List.length_append, List.length_singleton] at hlength ⊢
    have hnumbers := hs.numbers (by omega)
    rw [List.map_append, hnumbers, List.range'_1_concat, List.map_append]
    simp [nextUserId_toInt hlength hnumbers]

/-! ### Users are only ever added -/

/-- The name of the user that a command creates. -/
def Command.newUser? : Command → Option String
  | .createUser username .. => some username
  | _ => none

theorem users_apply {s s' : Store} {cmd : Command} (h : cmd.apply s = .ok s') :
    ∃ new, s'.users = s.users ++ new ∧ new.map (·.username) = cmd.newUser?.toList := by
  cases cmd with
  | create c =>
    obtain ⟨-, -, rfl⟩ := create_eq_ok_iff.mp h
    exact ⟨[], by simp, rfl⟩
  | update c now =>
    obtain ⟨-, -, rfl⟩ := update_eq_ok_iff.mp h
    exact ⟨[], by simp, rfl⟩
  | delete id =>
    obtain ⟨-, rfl⟩ := delete_eq_ok_iff.mp h
    exact ⟨[], by simp, rfl⟩
  | createUser username passwordHash isAdmin sessionHours now =>
    obtain ⟨-, rfl⟩ := createUser_eq_ok_iff.mp h
    exact ⟨_, rfl, rfl⟩

theorem users_prefix_run (s : Store) (cmds : List Command) : s.users <+: (s.run cmds).users := by
  apply run_induction (P := fun s' => s.users <+: s'.users) (List.prefix_refl _)
  intro s' s'' cmd hprefix happly
  obtain ⟨new, hnew, -⟩ := users_apply happly
  rw [hnew]
  exact hprefix.trans (List.prefix_append _ _)

theorem usernames_run (cmds : List Command) :
    (empty.run cmds).users.map (·.username) = (empty.taken cmds).filterMap Command.newUser? := by
  induction cmds using List.reverseRecOn with
  | nil => rfl
  | append_singleton cmds cmd ih =>
    rcases run_snoc_cases empty cmds cmd with ⟨s', happly, hrun, htaken⟩ | ⟨hrun, htaken⟩
    · obtain ⟨new, hnew, hname⟩ := users_apply happly
      rw [hrun, htaken, hnew, List.map_append, List.filterMap_append, ih, hname]
      cases h : cmd.newUser? with
      | none => simp [h]
      | some username => simp [h]
    · rw [hrun, htaken, ih]

/-- **Nothing is kept twice.** After any commands, from the empty store on,

* a company is kept under its own identifier, and no two have one identifier or one name;
* no two users have one name, and they are numbered from one in the order in which they were created;
  users stay, so that no number is given again;
* a command that is refused leaves the store as it was. This holds of whatever the command does, by the type of
  `Command.apply`: a refusal comes without a store, so there is none to go on with but the old one. -/
theorem records_are_unique (cmds : List Command) :
    (∀ id c, (empty.run cmds).find? id = some c ↔
      c ∈ (empty.run cmds).companies ∧ c.id = id) ∧
    (empty.run cmds).Orderly ∧
    (empty.run cmds).users.map (·.username) = (empty.taken cmds).filterMap Command.newUser? ∧
    (∀ more, (empty.run cmds).users <+: (empty.run (cmds ++ more)).users) ∧
    ∀ cmd e, cmd.apply (empty.run cmds) = .error e →
      (empty.run cmds).after cmd = empty.run cmds := by
  have horderly : (empty.run cmds).Orderly := run_induction empty_orderly Orderly.apply cmds
  refine ⟨?_, horderly, usernames_run cmds, ?_, ?_⟩
  · intro id c
    exact find?_eq_some_iff horderly.ids
  · intro more
    rw [run_append]
    exact users_prefix_run _ more
  · intro cmd e herror
    exact after_of_error herror

/-! A sample: two users, the second name given twice, and two companies that swap a name in vain. -/

theorem midnight_onClock : Instant.OnClock 0 0 := by decide

def sampleInstant : Instant := ⟨⟨2024, 1, 1, by decide⟩, 0, 0, midnight_onClock⟩

def sampleCompany (octet : UInt8) (name : String) : Company where
  id := ⟨List.replicate 16 octet, by simp⟩
  name := name
  description := ""
  employees := 1
  registered := false
  kind := .corporation
  createdAt := sampleInstant
  updatedAt := sampleInstant

def sampleCommands : List Command :=
  [.createUser "ada" "" true 0 sampleInstant, .createUser "bob" "" false 0 sampleInstant,
    .createUser "bob" "" true 0 sampleInstant, .create (sampleCompany 1 "acme"),
    .create (sampleCompany 2 "brick")]

/-- The users are numbered one and two, and a company cannot take the name of another. -/
theorem sample_records_are_unique :
    (empty.run sampleCommands).users.map (·.id.toInt) = [1, 2] ∧
    ((empty.run sampleCommands).companies.map (·.name)).Nodup ∧
    (empty.run sampleCommands).after (.update (sampleCompany 1 "brick") sampleInstant) =
      empty.run sampleCommands := by
  obtain ⟨-, horderly, -, -, hrefused⟩ := records_are_unique sampleCommands
  refine ⟨horderly.numbers (by decide), horderly.names, ?_⟩
  exact hrefused _ (.alreadyExists "brick") rfl

end CompanyRegistry.Store
