import CompanyRegistry.Proofs.Store.Uniqueness

/-!
# A store shows the last of its history

What a store shows under an identifier is told by the commands that were taken (`Store.taken`) and name it,
and by nothing else: the last creation, the last writing, and whether a deletion came since
(`get_tells_history`). Of the records under other identifiers a command depends in whether it is taken,
but it never changes them (`find?_apply_of_not_concerns`).

The proof goes along the commands: `Told` relates what is found to the commands taken so far, and
`Told.snoc` is its step for one more.
-/

namespace CompanyRegistry.Store

/-! ### The last item of its sort -/

/-- The last item of a list that has a property. -/
def Latest {α : Type} (p : α → Prop) (l : List α) (a : α) : Prop :=
  ∃ before after, l = before ++ a :: after ∧ p a ∧ ∀ b ∈ after, ¬ p b

section
variable {α : Type} {p : α → Prop} {l : List α} {a b : α}

theorem latest_concat (h : p a) : Latest p (l ++ [a]) a :=
  ⟨l, [], rfl, h, by simp⟩

theorem Latest.concat (h : Latest p l a) (hb : ¬ p b) : Latest p (l ++ [b]) a := by
  obtain ⟨before, after, rfl, ha, hafter⟩ := h
  refine ⟨before, after ++ [b], by simp, ha, ?_⟩
  intro c hc
  rcases List.mem_append.mp hc with hc | hc
  · exact hafter c hc
  · rw [List.mem_singleton.mp hc]
    exact hb

theorem Latest.holds (h : Latest p l a) : p a := by
  obtain ⟨-, -, -, ha, -⟩ := h
  exact ha

theorem Latest.mem (h : Latest p l a) : a ∈ l := by
  obtain ⟨before, after, rfl, -⟩ := h
  simp

theorem Latest.unique (ha : Latest p l a) (hb : Latest p l b) : a = b := by
  obtain ⟨before, after, rfl, hpa, hafter⟩ := ha
  obtain ⟨before', after', heq, hpb, hafter'⟩ := hb
  -- the one that stands further left stands before the other, which then is a later one
  rcases List.append_eq_append_iff.mp heq with ⟨mid, -, hmid⟩ | ⟨mid, -, hmid⟩
  · cases mid with
    | nil => exact (List.cons.inj hmid).1
    | cons c mid =>
      have hmem : b ∈ after := by simp [(List.cons.inj hmid).2]
      exact absurd hpb (hafter b hmem)
  · cases mid with
    | nil => exact (List.cons.inj hmid).1.symm
    | cons c mid =>
      have hmem : a ∈ after' := by simp [(List.cons.inj hmid).2]
      exact absurd hpa (hafter' a hmem)

end

/-! ### What a command has to do with an identifier -/

namespace Command

/-- The command adds a company with this identifier. -/
def Creates (id : Company.Id) : Command → Prop
  | .create c => c.id = id
  | _ => False

/-- The command removes the company with this identifier. -/
def Deletes (id : Company.Id) : Command → Prop
  | .delete deleted => deleted = id
  | _ => False

/-- The company that a command writes, and the time that it is then said to be of. -/
def written? : Command → Option (Company × Instant)
  | .create c => some (c, c.updatedAt)
  | .update c now => some (c, now)
  | _ => none

/-- The command writes a company with this identifier. -/
def Writes (id : Company.Id) (cmd : Command) : Prop :=
  ∃ c time, cmd.written? = some (c, time) ∧ c.id = id

/-- The command names this identifier. -/
def Concerns (id : Company.Id) (cmd : Command) : Prop := cmd.Writes id ∨ cmd.Deletes id

end Command

/-- No company has this identifier, by the commands taken: none has created it, or the last to create or
delete it has deleted it. -/
def Gone (id : Company.Id) (history : List Command) : Prop :=
  (∀ cmd ∈ history, ¬ cmd.Creates id) ∨
    ∃ cmd, Latest (fun cmd => cmd.Creates id ∨ cmd.Deletes id) history cmd ∧ cmd.Deletes id

/-- This company has the identifier, by the commands taken: it has the creation time of the last creation,
all else is of the last writing, and there was no deletion since the creation. -/
def Kept (id : Company.Id) (history : List Command) (kept : Company) : Prop :=
  ∃ created last c time,
    Latest (Command.Creates id) history (.create created) ∧
    Latest (Command.Writes id) history last ∧ last.written? = some (c, time) ∧
    kept = { c with createdAt := created.createdAt, updatedAt := time } ∧
    Latest (fun cmd => cmd.Creates id ∨ cmd.Deletes id) history (.create created)

/-- What is found under an identifier, by the commands taken. -/
def Told (id : Company.Id) (history : List Command) : Option Company → Prop
  | none => Gone id history
  | some kept => Kept id history kept

section
variable {id : Company.Id} {history : List Command} {cmd : Command} {found : Option Company}

theorem Command.Creates.writes (h : cmd.Creates id) : cmd.Writes id := by
  cases cmd with
  | create c => exact ⟨c, c.updatedAt, rfl, h⟩
  | update | delete | createUser => exact h.elim

theorem Kept.not_gone {kept : Company} (h : Kept id history kept) : ¬ Gone id history := by
  obtain ⟨created, last, c, time, hcreated, -, -, -, hsince⟩ := h
  rintro (hnone | ⟨cmd, hcmd, hdeletes⟩)
  · exact hnone _ hcreated.mem hcreated.holds
  · rw [hcmd.unique hsince] at hdeletes
    exact hdeletes

/-! ### One more command -/

theorem Told.concat (h : Told id history found) (hcmd : ¬ cmd.Concerns id) :
    Told id (history ++ [cmd]) found := by
  have hwrites : ¬ cmd.Writes id := fun hw => hcmd (Or.inl hw)
  have hcreates : ¬ cmd.Creates id := fun hc => hwrites hc.writes
  have hneither : ¬ (cmd.Creates id ∨ cmd.Deletes id) := by
    rintro (hc | hd)
    · exact hcreates hc
    · exact hcmd (Or.inr hd)
  cases found with
  | none =>
    rcases h with hnone | ⟨last, hlast, hdeletes⟩
    · refine Or.inl ?_
      intro other hother
      rcases List.mem_append.mp hother with hother | hother
      · exact hnone other hother
      · rwa [List.mem_singleton.mp hother]
    · exact Or.inr ⟨last, hlast.concat hneither, hdeletes⟩
  | some kept =>
    obtain ⟨created, last, c, time, hcreated, hlast, hwritten, hkept, hsince⟩ := h
    exact ⟨created, last, c, time, hcreated.concat hcreates, hlast.concat hwrites, hwritten, hkept,
      hsince.concat hneither⟩

theorem told_create {c : Company} (hid : c.id = id) :
    Told id (history ++ [.create c]) (some c) :=
  ⟨c, .create c, c, c.updatedAt, latest_concat hid, latest_concat ⟨c, c.updatedAt, rfl, hid⟩, rfl, rfl,
    latest_concat (Or.inl hid)⟩

theorem told_update {c old : Company} {now : Instant} (h : Told id history (some old))
    (hid : c.id = id) : Told id (history ++ [.update c now]) (some (revised old c now)) := by
  obtain ⟨created, -, -, -, hcreated, -, -, rfl, hsince⟩ := h
  refine ⟨created, .update c now, c, now, hcreated.concat (by simp [Command.Creates]),
    latest_concat ⟨c, now, rfl, hid⟩, rfl, rfl, hsince.concat ?_⟩
  simp [Command.Creates, Command.Deletes]

theorem told_delete : Told id (history ++ [.delete id]) none :=
  Or.inr ⟨.delete id, latest_concat (Or.inr rfl), rfl⟩

theorem find?_apply_of_not_concerns {s s' : Store} (h : cmd.apply s = .ok s')
    (hcmd : ¬ cmd.Concerns id) : s'.find? id = s.find? id := by
  cases cmd with
  | create c =>
    have hid : c.id ≠ id := fun hid => hcmd (Or.inl ⟨c, c.updatedAt, rfl, hid⟩)
    rw [find?_create h, if_neg hid]
  | update c now =>
    have hid : c.id ≠ id := fun hid => hcmd (Or.inl ⟨c, now, rfl, hid⟩)
    rw [find?_update h, if_neg hid]
  | delete deleted =>
    have hid : deleted ≠ id := fun hid => hcmd (Or.inr hid)
    rw [find?_delete h, if_neg hid]
  | createUser username passwordHash isAdmin sessionHours now =>
    obtain ⟨-, rfl⟩ := createUser_eq_ok_iff.mp h
    rfl

theorem Told.snoc {s s' : Store} (h : Told id history (s.find? id)) (happly : cmd.apply s = .ok s') :
    Told id (history ++ [cmd]) (s'.find? id) := by
  by_cases hconcerns : cmd.Concerns id
  · cases cmd with
    | create c =>
      have hid : c.id = id := by
        rcases hconcerns with ⟨_, _, hwritten, hid⟩ | hdeletes
        · cases hwritten
          exact hid
        · exact hdeletes.elim
      rw [find?_create happly, if_pos hid]
      exact told_create hid
    | update c now =>
      have hid : c.id = id := by
        rcases hconcerns with ⟨_, _, hwritten, hid⟩ | hdeletes
        · cases hwritten
          exact hid
        · exact hdeletes.elim
      obtain ⟨-, ⟨old, hold⟩, -⟩ := update_eq_ok_iff.mp happly
      rw [hid] at hold
      rw [hold] at h
      rw [find?_update happly, if_pos hid, hold]
      exact told_update h hid
    | delete deleted =>
      have hid : deleted = id := by
        rcases hconcerns with ⟨_, _, hwritten, -⟩ | hdeletes
        · cases hwritten
        · exact hdeletes
      rw [find?_delete happly, if_pos hid, hid]
      exact told_delete
    | createUser =>
      rcases hconcerns with ⟨_, _, hwritten, -⟩ | hdeletes
      · cases hwritten
      · exact hdeletes.elim
  · rw [find?_apply_of_not_concerns happly hconcerns]
    exact h.concat hconcerns

theorem told_run (id : Company.Id) (cmds : List Command) :
    Told id (empty.taken cmds) ((empty.run cmds).find? id) := by
  induction cmds using List.reverseRecOn with
  | nil => exact Or.inl (by simp [taken])
  | append_singleton cmds cmd ih =>
    rcases run_snoc_cases empty cmds cmd with ⟨s', happly, hrun, htaken⟩ | ⟨hrun, htaken⟩
    · rw [hrun, htaken]
      exact ih.snoc happly
    · rw [hrun, htaken]
      exact ih

end

/-! ### What is shown -/

/-- **A store shows the last of its history.** After any commands, from the empty store on, a company is
shown under an identifier unless none was created there or the last one was deleted. It is shown with the
creation time of the last creation, and all else as it was last written, the time of its last change being
that of the creation's own record or of the clock at the last update. A command never changes what is shown
under an identifier that it does not name. -/
theorem get_tells_history (cmds : List Command) (id : Company.Id) :
    ((empty.run cmds).get id = .error .notFound ↔ Gone id (empty.taken cmds)) ∧
    (¬ Gone id (empty.taken cmds) →
      ∃ kept, (empty.run cmds).get id = .ok kept ∧ Kept id (empty.taken cmds) kept) ∧
    ∀ (s : Store) (cmd : Command), ¬ cmd.Concerns id → (s.after cmd).get id = s.get id := by
  have htold := told_run id cmds
  refine ⟨?_, ?_, ?_⟩
  · rw [get_eq_notFound_iff]
    cases hfind : (empty.run cmds).find? id with
    | none =>
      rw [hfind] at htold
      exact ⟨fun _ => htold, fun _ => rfl⟩
    | some kept =>
      rw [hfind] at htold
      simpa using htold.not_gone
  · intro hnot
    cases hfind : (empty.run cmds).find? id with
    | none =>
      rw [hfind] at htold
      exact absurd htold hnot
    | some kept =>
      rw [hfind] at htold
      exact ⟨kept, get_eq_ok_iff.mpr hfind, htold⟩
  · intro s cmd hconcerns
    cases happly : cmd.apply s with
    | ok s' =>
      have hfind := find?_apply_of_not_concerns happly hconcerns
      rw [after_of_ok happly, get, get, hfind]
    | error e => rw [after_of_error happly]

/-! A sample: one company is renamed two hours later, another is deleted. -/

def laterInstant : Instant := ⟨sampleInstant.date, 7200, 0, by decide⟩

def sampleChanges : List Command :=
  [.create (sampleCompany 1 "acme"), .create (sampleCompany 2 "brick"),
    .update (sampleCompany 1 "apex") laterInstant, .delete (sampleCompany 2 "brick").id]

/-- The renamed company is shown with its new name and both its times, the deleted one not at all. -/
theorem sample_get_tells_history :
    (∃ kept, (empty.run sampleChanges).get (sampleCompany 1 "").id = .ok kept ∧
      Kept (sampleCompany 1 "").id (empty.taken sampleChanges) kept ∧
      (kept.name, kept.createdAt, kept.updatedAt) = ("apex", sampleInstant, laterInstant)) ∧
    (empty.run sampleChanges).get (sampleCompany 2 "").id = .error .notFound := by
  constructor
  · obtain ⟨hgone, hkept, -⟩ := get_tells_history sampleChanges (sampleCompany 1 "").id
    have hnot : ¬ Gone (sampleCompany 1 "").id (empty.taken sampleChanges) := by
      intro h
      cases hgone.mpr h
    obtain ⟨kept, hget, h⟩ := hkept hnot
    refine ⟨kept, hget, h, ?_⟩
    cases hget
    rfl
  · obtain ⟨hgone, -⟩ := get_tells_history sampleChanges (sampleCompany 2 "").id
    exact hgone.mpr (Or.inr ⟨.delete _, ⟨sampleChanges.take 3, [], rfl, Or.inr rfl, by simp⟩, rfl⟩)

end CompanyRegistry.Store
