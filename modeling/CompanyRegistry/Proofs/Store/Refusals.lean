import CompanyRegistry.Proofs.Store.Uniqueness

/-!
# Updates that are refused

An update is refused for one of two reasons: another company has the new name, or no company has the identifier.
The name is looked at first (`update_cases`). So an update of a company that is not stored changes nothing, and
`not_stored_is_not_updated` says which of the two it is told; it is not always that the company does not
exist (`an_unknown_company_meets_its_name`).
-/

namespace CompanyRegistry.Store

/-- Another company has the name of this one. -/
def OtherHasName (s : Store) (c : Company) : Prop :=
  ∃ other ∈ s.companies, other.id ≠ c.id ∧ other.name = c.name

variable {s : Store} {c : Company} {now : Instant}

theorem update_cases (s : Store) (c : Company) (now : Instant) :
    (s.OtherHasName c ∧ s.update c now = .error (.alreadyExists c.name)) ∨
    (¬ s.OtherHasName c ∧ s.find? c.id = none ∧ s.update c now = .error .notFound) ∨
    (¬ s.OtherHasName c ∧ s.find? c.id ≠ none ∧ ∃ s', s.update c now = .ok s') := by
  have hother : (s.companies.any fun other => other.id ≠ c.id ∧ other.name = c.name) = true ↔
      s.OtherHasName c := by
    simp only [List.any_eq_true, decide_eq_true_iff, OtherHasName]
  unfold update
  split_ifs with hname
  · exact Or.inl ⟨hother.mp hname, rfl⟩
  · have hfree : ¬ s.OtherHasName c := fun h => hname (hother.mpr h)
    cases hfind : s.find? c.id with
    | none => exact Or.inr (Or.inl ⟨hfree, rfl, rfl⟩)
    | some old => exact Or.inr (Or.inr ⟨hfree, by simp, _, rfl⟩)

/-- A company that is not stored has its name from another one, if anyone has it. -/
theorem otherHasName_iff (hid : s.find? c.id = none) :
    s.OtherHasName c ↔ ∃ other ∈ s.companies, other.name = c.name := by
  constructor
  · rintro ⟨other, hother, -, hname⟩
    exact ⟨other, hother, hname⟩
  · rintro ⟨other, hother, hname⟩
    exact ⟨other, hother, find?_eq_none_iff.mp hid other hother, hname⟩

theorem update_eq_notFound_iff :
    s.update c now = .error .notFound ↔
      s.find? c.id = none ∧ ∀ other ∈ s.companies, other.name ≠ c.name := by
  rcases update_cases s c now with ⟨htaken, heq⟩ | ⟨hfree, hid, heq⟩ | ⟨-, hid, s', heq⟩
  · rw [heq]
    simp only [Except.error.injEq, reduceCtorEq, false_iff]
    rintro ⟨hid, hnew⟩
    obtain ⟨other, hother, hname⟩ := (otherHasName_iff hid).mp htaken
    exact hnew other hother hname
  · rw [heq]
    rw [otherHasName_iff hid] at hfree
    exact ⟨fun _ => ⟨hid, fun other hother hname => hfree ⟨other, hother, hname⟩⟩, fun _ => rfl⟩
  · rw [heq]
    simp [hid]

theorem update_of_name_stored (hid : s.find? c.id = none)
    (hname : ∃ other ∈ s.companies, other.name = c.name) :
    s.update c now = .error (.alreadyExists c.name) := by
  have htaken := (otherHasName_iff hid).mpr hname
  rcases update_cases s c now with ⟨-, heq⟩ | ⟨hfree, -⟩ | ⟨hfree, -⟩
  · exact heq
  · exact absurd htaken hfree
  · exact absurd htaken hfree

theorem update_of_not_stored (hid : s.find? c.id = none) : ∃ e, s.update c now = .error e := by
  rcases update_cases s c now with ⟨-, heq⟩ | ⟨-, -, heq⟩ | ⟨-, hstored, -⟩
  · exact ⟨_, heq⟩
  · exact ⟨_, heq⟩
  · exact absurd hid hstored

/-- Commands that a store refuses leave it as it was, however many they are. -/
theorem run_of_refused {cmds : List Command}
    (hrefused : ∀ cmd ∈ cmds, ∃ e, cmd.apply s = .error e) : s.run cmds = s ∧ s.taken cmds = [] := by
  induction cmds with
  | nil => exact ⟨rfl, rfl⟩
  | cons cmd cmds ih =>
    rw [List.forall_mem_cons] at hrefused
    obtain ⟨⟨e, he⟩, hrest⟩ := hrefused
    obtain ⟨hrun, htaken⟩ := ih hrest
    simp only [run, taken, after_of_error he]
    exact ⟨hrun, by simp [he, htaken, Except.isOk, Except.toBool]⟩

/-- **What is not stored is not updated.** An update is told that its company does not exist exactly if no stored
company has the identifier and none has the name either; if one has the name, the update of an unknown identifier
is told so instead. In both cases the store stays as it was, after any number of such updates. -/
theorem not_stored_is_not_updated (s : Store) :
    (∀ c now, s.update c now = .error .notFound ↔
      s.find? c.id = none ∧ ∀ other ∈ s.companies, other.name ≠ c.name) ∧
    (∀ c now, s.find? c.id = none → (∃ other ∈ s.companies, other.name = c.name) →
      s.update c now = .error (.alreadyExists c.name)) ∧
    ∀ updates : List (Company × Instant), (∀ u ∈ updates, s.find? u.1.id = none) →
      s.run (updates.map fun u => .update u.1 u.2) = s ∧
      s.taken (updates.map fun u => .update u.1 u.2) = [] := by
  refine ⟨fun c now => update_eq_notFound_iff, fun c now => update_of_name_stored, ?_⟩
  intro updates hids
  apply run_of_refused
  rw [List.forall_mem_map]
  exact fun u hu => update_of_not_stored (hids u hu)

/-- Updates of a third company, with a name of its own and with one that is stored. -/
theorem third_company_is_not_updated :
    (empty.run sampleCommands).find? (sampleCompany 3 "zinc").id = none ∧
    (empty.run sampleCommands).update (sampleCompany 3 "zinc") sampleInstant = .error .notFound ∧
    (empty.run sampleCommands).update (sampleCompany 3 "acme") sampleInstant =
      .error (.alreadyExists "acme") ∧
    (empty.run sampleCommands).run [.update (sampleCompany 3 "zinc") sampleInstant,
      .update (sampleCompany 3 "acme") sampleInstant] = empty.run sampleCommands := by
  obtain ⟨hnotFound, htaken, hrun⟩ := not_stored_is_not_updated (empty.run sampleCommands)
  have hid : (empty.run sampleCommands).find? (sampleCompany 3 "zinc").id = none := by decide
  have hacme : ∃ other ∈ (empty.run sampleCommands).companies, other.name = "acme" :=
    ⟨sampleCompany 1 "acme", by decide, rfl⟩
  refine ⟨hid, (hnotFound _ _).mpr ⟨hid, by decide⟩, htaken _ _ hid hacme, ?_⟩
  refine (hrun [(sampleCompany 3 "zinc", sampleInstant), (sampleCompany 3 "acme", sampleInstant)] ?_).1
  simp only [List.forall_mem_cons]
  exact ⟨hid, hid, by simp⟩

/-- Not every update of a company that is not stored is told that it does not exist: a name that is stored is
noticed before. -/
theorem an_unknown_company_meets_its_name :
    ¬ ∀ (s : Store) (c : Company) (now : Instant), s.find? c.id = none →
      s.update c now = .error .notFound ∧ s.after (.update c now) = s := by
  intro hnotFound
  have hid : (empty.run sampleCommands).find? (sampleCompany 3 "acme").id = none := by decide
  obtain ⟨htold, -⟩ := hnotFound (empty.run sampleCommands) (sampleCompany 3 "acme") sampleInstant hid
  revert htold
  rw [show (empty.run sampleCommands).update (sampleCompany 3 "acme") sampleInstant =
    .error (.alreadyExists "acme") from rfl]
  simp

end CompanyRegistry.Store
