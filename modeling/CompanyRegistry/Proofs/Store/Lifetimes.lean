import CompanyRegistry.Proofs.Store.Uniqueness

/-!
# From creation to deletion

What every command keeps about the companies of a store: they have passed `Company.check`
(`Checked.apply`), and none but a creation or a deletion changes what companies there are and when they came
into being (`births_apply`). An update is given a company with a time of creation of its own, which
`Store.revised` throws away.
-/

namespace CompanyRegistry

/-! ### The limits of a record -/

theorem Company.check_eq_ok_iff {c : Company} :
    c.check = .ok () ↔ Text.allBlank c.name = false ∧ c.name.length ≤ 15 ∧
      c.description.length ≤ 3000 ∧ c.employees ≠ 0 := by
  unfold Company.check Company.maxName Company.maxDescription
  split_ifs with hblank hname hdescription hemployees
  · simp [hblank]
  · simp only [false_iff]
    rintro ⟨-, hshort, -⟩
    omega
  · simp only [false_iff]
    rintro ⟨-, -, hshort, -⟩
    omega
  · simp [hemployees]
  · simp only [true_iff]
    exact ⟨by simpa using hblank, by omega, by omega, hemployees⟩

theorem Text.allBlank_eq_false_iff {s : String} :
    Text.allBlank s = false ↔ ∃ c ∈ s.toList, Text.isBlank c = false := by
  unfold Text.allBlank
  rw [List.all_eq_false]
  simp only [Bool.not_eq_true]

namespace Store

/-- Every company has passed the check. -/
def Checked (s : Store) : Prop := ∀ c ∈ s.companies, c.check = .ok ()

/-- A command writes no company that fails the check. -/
def Command.Checked : Command → Prop
  | .create c | .update c _ => c.check = .ok ()
  | _ => True

variable {s s' : Store} {cmd : Command}

theorem Checked.apply (hs : s.Checked) (hcmd : cmd.Checked) (h : cmd.apply s = .ok s') :
    s'.Checked := by
  intro c' hc'
  cases cmd with
  | create c =>
    obtain ⟨-, -, rfl⟩ := create_eq_ok_iff.mp h
    rcases List.mem_append.mp hc' with hold | hnew
    · exact hs c' hold
    · rw [List.mem_singleton.mp hnew]
      exact hcmd
  | update c now =>
    obtain ⟨-, -, rfl⟩ := update_eq_ok_iff.mp h
    obtain ⟨old, hold, rfl⟩ := List.mem_map.mp hc'
    split_ifs with hid
    · -- the check does not look at the times, in which alone the kept record differs
      exact hcmd
    · exact hs old hold
  | delete id =>
    obtain ⟨-, rfl⟩ := delete_eq_ok_iff.mp h
    exact hs c' (List.mem_filter.mp hc').1
  | createUser =>
    obtain ⟨-, rfl⟩ := createUser_eq_ok_iff.mp h
    exact hs c' hc'

/-! ### Births -/

/-- The companies by their identifiers, with the times of their creation. -/
def births (s : Store) : List (Company.Id × Instant) :=
  s.companies.map fun c => (c.id, c.createdAt)

/-- The births after a command. -/
def Command.births (old : List (Company.Id × Instant)) : Command → List (Company.Id × Instant)
  | .create c => old ++ [(c.id, c.createdAt)]
  | .delete id => old.filter (·.1 ≠ id)
  | .update .. | .createUser .. => old

theorem births_apply (h : cmd.apply s = .ok s') : s'.births = cmd.births s.births := by
  cases cmd with
  | create c =>
    obtain ⟨-, -, rfl⟩ := create_eq_ok_iff.mp h
    exact List.map_append
  | update c now =>
    obtain ⟨-, -, rfl⟩ := update_eq_ok_iff.mp h
    unfold births
    rw [List.map_map]
    apply List.map_congr_left
    intro old _
    by_cases hid : old.id = c.id
    · simp [hid, revised]
    · simp [hid]
  | delete id =>
    obtain ⟨-, rfl⟩ := delete_eq_ok_iff.mp h
    simp only [births, Command.births, List.filter_map]
    rfl
  | createUser =>
    obtain ⟨-, rfl⟩ := createUser_eq_ok_iff.mp h
    rfl

theorem mem_births_iff {id : Company.Id} {t : Instant} :
    (id, t) ∈ s.births ↔ ∃ c ∈ s.companies, c.id = id ∧ c.createdAt = t := by
  simp [births]

/-- A birth is forgotten with the company only. -/
theorem mem_births_apply (h : cmd.apply s = .ok s') {id : Company.Id} {t : Instant}
    (hborn : (id, t) ∈ s.births) : (id, t) ∈ s'.births ∨ cmd = .delete id := by
  rw [births_apply h]
  cases cmd with
  | create c => exact Or.inl (List.mem_append_left _ hborn)
  | update | createUser => exact Or.inl hborn
  | delete deleted =>
    by_cases hid : deleted = id
    · exact Or.inr (congrArg Command.delete hid)
    · refine Or.inl (List.mem_filter.mpr ⟨hborn, ?_⟩)
      simpa using Ne.symm hid

end Store

end CompanyRegistry
