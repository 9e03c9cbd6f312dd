import CompanyRegistry.Proofs.Store.History
import CompanyRegistry.Proofs.Store.Refusals
import Mathlib.Data.List.Perm.Basic

/-!
# Mutations that do not see each other

A `Mutation` creates, updates or deletes one company. The store shows it two things: what is kept
under its identifier (`under`), and whether another company has the name that it writes (`holdsName`).
From these its answer (`answer_eq`) and what it leaves under its identifier (`leaves`) are known, and
under any other identifier it changes nothing (`under_after`). So two mutations under different
identifiers can meet in a name alone; where they do not (`Independent`), neither shows the other anything,
and `independent_mutations_commute`.
-/

namespace CompanyRegistry.Store

inductive Mutation
  | create (c : Company)
  | update (c : Company)
  | delete (id : Company.Id)

namespace Mutation

def id : Mutation → Company.Id
  | .create c => c.id
  | .update c => c.id
  | .delete id => id

/-- The name that is written. -/
def name? : Mutation → Option String
  | .create c => some c.name
  | .update c => some c.name
  | .delete _ => none

/-- The identifier of a company that is kept with the time of its update. -/
def stamped? : Mutation → Option Company.Id
  | .update c => some c.id
  | _ => none

def command (now : Instant) : Mutation → Command
  | .create c => .create c
  | .update c => .update c now
  | .delete id => .delete id

/-- The answer, where a company is `stored` under the identifier or not, and another `holds` the name or
not. -/
def verdict (stored holds : Bool) : Mutation → Except Failure Unit
  | .create c =>
    if stored then .error (.alreadyExists c.id.text)
    else if holds then .error (.alreadyExists c.name)
    else .ok ()
  | .update c =>
    if holds then .error (.alreadyExists c.name)
    else if stored then .ok ()
    else .error .notFound
  | .delete _ => if stored then .ok () else .error .notFound

/-- What is kept under the identifier after what was `kept` there. -/
def rewrite (now : Instant) (kept : List Company) : Mutation → List Company
  | .create c => kept ++ [c]
  | .update c => kept.map (revised · c now)
  | .delete _ => []

end Mutation

/-- What a command answers; the store that it gives is not told. -/
def Command.answer (s : Store) (cmd : Command) : Except Failure Unit :=
  (cmd.apply s).map fun _ => ()

def under (s : Store) (id : Company.Id) : List Company := s.companies.filter (·.id = id)

def holdsName (s : Store) (a : Mutation) : Bool :=
  s.companies.any fun other => other.id ≠ a.id ∧ a.name? = some other.name

def leaves (s : Store) (now : Instant) (a : Mutation) : List Company :=
  match (a.command now).answer s with
  | .ok _ => a.rewrite now (s.under a.id)
  | .error _ => s.under a.id

variable {s s' : Store} {a b : Mutation} {c : Company} {id : Company.Id} {now : Instant}

theorem find?_eq_head?_under (s : Store) (id : Company.Id) : s.find? id = (s.under id).head? := by
  rw [find?, under, List.head?_filter]

theorem mem_under : c ∈ s.under id ↔ c ∈ s.companies ∧ c.id = id := by
  rw [under, List.mem_filter, decide_eq_true_iff]

theorem mem_companies_iff : c ∈ s.companies ↔ c ∈ s.under c.id := by
  rw [mem_under, and_iff_left rfl]

theorem holdsName_iff :
    s.holdsName a = true ↔
      ∃ other ∈ s.companies, other.id ≠ a.id ∧ a.name? = some other.name := by
  simp only [holdsName, List.any_eq_true, decide_eq_true_iff]

/-! ### The answer of one mutation -/

theorem holdsName_iff_otherHasName (hid : a.id = c.id) (hname : a.name? = some c.name) :
    s.holdsName a = true ↔ s.OtherHasName c := by
  rw [holdsName_iff, hid, hname]
  simp only [OtherHasName, Option.some.injEq, eq_comm]

theorem any_name_eq_holdsName (h : s.find? c.id = none) :
    s.companies.any (·.name = c.name) = s.holdsName (.create c) := by
  rw [Bool.eq_iff_iff, holdsName_iff_otherHasName rfl rfl, otherHasName_iff h]
  simp only [List.any_eq_true, decide_eq_true_iff]

theorem answer_create (s : Store) (c : Company) :
    (Command.create c).answer s =
      (Mutation.create c).verdict (s.find? c.id).isSome (s.holdsName (.create c)) := by
  unfold Command.answer
  dsimp only [Command.apply, Mutation.verdict, create]
  cases hfind : s.find? c.id with
  | some old => rfl
  | none =>
    rw [any_name_eq_holdsName hfind]
    cases s.holdsName (.create c) <;> rfl

theorem answer_update (s : Store) (c : Company) (now : Instant) :
    (Command.update c now).answer s =
      (Mutation.update c).verdict (s.find? c.id).isSome (s.holdsName (.update c)) := by
  have hholds : s.holdsName (.update c) = true ↔ s.OtherHasName c :=
    holdsName_iff_otherHasName rfl rfl
  unfold Command.answer
  dsimp only [Command.apply, Mutation.verdict]
  rcases update_cases s c now with ⟨htaken, heq⟩ | ⟨hfree, hfind, heq⟩ | ⟨hfree, hfind, s', heq⟩
  · rw [heq, if_pos (hholds.mpr htaken)]
    rfl
  · rw [heq, if_neg (hholds.not.mpr hfree), hfind]
    rfl
  · rw [heq, if_neg (hholds.not.mpr hfree), if_pos (Option.isSome_iff_ne_none.mpr hfind)]
    rfl

theorem answer_delete (s : Store) (id : Company.Id) :
    (Command.delete id).answer s =
      (Mutation.delete id).verdict (s.find? id).isSome (s.holdsName (.delete id)) := by
  unfold Command.answer
  dsimp only [Command.apply, Mutation.verdict, delete]
  cases s.find? id <;> rfl

theorem answer_eq (s : Store) (now : Instant) (a : Mutation) :
    (a.command now).answer s = a.verdict (s.find? a.id).isSome (s.holdsName a) := by
  cases a with
  | create c => exact answer_create s c
  | update c => exact answer_update s c now
  | delete id => exact answer_delete s id

/-! ### The store after one mutation -/

theorem leaves_of_ok (h : (a.command now).apply s = .ok s') :
    s.leaves now a = a.rewrite now (s.under a.id) := by
  rw [leaves, Command.answer, h]
  rfl

theorem leaves_of_error {e : Failure} (h : (a.command now).apply s = .error e) :
    s.leaves now a = s.under a.id := by
  rw [leaves, Command.answer, h]
  rfl

theorem under_create (h : s.create c = .ok s') (id : Company.Id) :
    s'.under id = if id = c.id then s.under c.id ++ [c] else s.under id := by
  obtain ⟨-, -, rfl⟩ := create_eq_ok_iff.mp h
  unfold under
  rw [List.filter_append]
  by_cases hid : id = c.id
  · simp [hid]
  · simp [hid, Ne.symm hid]

theorem under_update (h : s.update c now = .ok s') (id : Company.Id) :
    s'.under id = if id = c.id then (s.under c.id).map (revised · c now) else s.under id := by
  obtain ⟨-, -, rfl⟩ := update_eq_ok_iff.mp h
  unfold under
  rw [List.filter_map, decide_id_replaced]
  have hreplaced : ∀ old ∈ s.companies.filter (·.id = id), old.id = id := by
    intro old hold
    exact (mem_under.mp hold).2
  by_cases hid : id = c.id
  · subst hid
    rw [if_pos rfl]
    apply List.map_congr_left
    intro old hold
    rw [if_pos (hreplaced old hold)]
  · rw [if_neg hid]
    refine (List.map_congr_left ?_).trans (List.map_id _)
    intro old hold
    exact if_neg (by rwa [hreplaced old hold])

theorem under_delete {deleted : Company.Id} (h : s.delete deleted = .ok s') (id : Company.Id) :
    s'.under id = if id = deleted then [] else s.under id := by
  obtain ⟨-, rfl⟩ := delete_eq_ok_iff.mp h
  unfold under
  rw [List.filter_filter]
  by_cases hid : id = deleted
  · simp [hid]
  · rw [if_neg hid]
    congr 1
    funext old
    by_cases hold : old.id = id
    · simp [hold, hid]
    · simp [hold]

theorem under_after (s : Store) (now : Instant) (a : Mutation) (id : Company.Id) :
    (s.after (a.command now)).under id = if id = a.id then s.leaves now a else s.under id := by
  cases h : (a.command now).apply s with
  | error e =>
    rw [after_of_error h, leaves_of_error h]
    split_ifs with hid
    · rw [hid]
    · rfl
  | ok s' =>
    rw [after_of_ok h, leaves_of_ok h]
    cases a with
    | create c => exact under_create h id
    | update c => exact under_update h id
    | delete deleted => exact under_delete h id

theorem users_after (s : Store) (now : Instant) (a : Mutation) :
    (s.after (a.command now)).users = s.users := by
  cases h : (a.command now).apply s with
  | error e => rw [after_of_error h]
  | ok s' =>
    obtain ⟨new, husers, hnew⟩ := users_apply h
    have hnone : (a.command now).newUser? = none := by cases a <;> rfl
    rw [hnone] at hnew
    rw [after_of_ok h, husers, List.map_eq_nil_iff.mp hnew, List.append_nil]

theorem mem_leaves (hc : c ∈ s.leaves now a) : c ∈ s.under a.id ∨ a.name? = some c.name := by
  cases h : (a.command now).apply s with
  | error e =>
    rw [leaves_of_error h] at hc
    exact Or.inl hc
  | ok s' =>
    rw [leaves_of_ok h] at hc
    cases a with
    | create new =>
      rcases List.mem_append.mp hc with hc | hc
      · exact Or.inl hc
      · rw [List.mem_singleton.mp hc]
        exact Or.inr rfl
    | update new =>
      obtain ⟨old, -, rfl⟩ := List.mem_map.mp hc
      exact Or.inr rfl
    | delete id => cases hc

/-! ### Two mutations -/

/-- Two mutations under different identifiers, which write different names, neither of them the name that
is kept under the identifier of the other. -/
structure Independent (s : Store) (a b : Mutation) : Prop where
  ids : a.id ≠ b.id
  names : ∀ name, a.name? = some name → b.name? ≠ some name
  left : ∀ c ∈ s.under b.id, a.name? ≠ some c.name
  right : ∀ c ∈ s.under a.id, b.name? ≠ some c.name

theorem Independent.symm (h : Independent s a b) : Independent s b a where
  ids := h.ids.symm
  names := fun name hb ha => h.names name ha hb
  left := h.right
  right := h.left

section Independent

variable {t t' u u' : Instant} (h : Independent s a b)

include h

/-- Nothing that the first leaves under its identifier has the name that the second writes. -/
theorem holdsName_after : (s.after (b.command u)).holdsName a = s.holdsName a := by
  rw [Bool.eq_iff_iff, holdsName_iff, holdsName_iff]
  refine exists_congr fun other => and_congr_left ?_
  rintro ⟨-, hname⟩
  rw [mem_companies_iff, mem_companies_iff, under_after]
  split_ifs with hid
  · rw [hid]
    constructor
    · intro hother
      rcases mem_leaves hother with hkept | hwritten
      · exact absurd hname (h.left other hkept)
      · exact absurd hwritten (h.names other.name hname)
    · intro hother
      exact absurd hname (h.left other hother)
  · rfl

theorem under_after_other : (s.after (b.command u)).under a.id = s.under a.id := by
  rw [under_after, if_neg h.ids]

theorem answer_after :
    (a.command t').answer (s.after (b.command u)) = (a.command t).answer s := by
  rw [answer_eq, answer_eq, holdsName_after h, find?_eq_head?_under, find?_eq_head?_under,
    under_after_other h]

theorem leaves_after : (s.after (b.command u)).leaves t a = s.leaves t a := by
  rw [leaves, leaves, answer_after h, under_after_other h]

theorem under_run (id : Company.Id) :
    (s.run [b.command u, a.command t]).under id =
      if id = a.id then s.leaves t a else if id = b.id then s.leaves u b else s.under id := by
  rw [run, run, run, under_after, leaves_after h, under_after]

theorem under_run_comm (id : Company.Id) :
    (s.run [a.command t, b.command u]).under id = (s.run [b.command u, a.command t]).under id := by
  rw [under_run h, under_run h.symm]
  split_ifs with hb ha
  · exact absurd (ha.symm.trans hb) h.ids
  · rfl
  · rfl
  · rfl

end Independent

/-! ### The time of an update -/

/-- A company without the time of its update, where one of the mutations sets it. -/
def unstamped (a b : Mutation) (c : Company) : Company :=
  if some c.id = a.stamped? ∨ some c.id = b.stamped? then { c with updatedAt := c.createdAt } else c

theorem unstamped_comm (a b : Mutation) : unstamped a b = unstamped b a := by
  funext c
  simp only [unstamped, or_comm]

theorem id_unstamped (a b : Mutation) (c : Company) : (unstamped a b c).id = c.id := by
  unfold unstamped
  split_ifs <;> rfl

theorem unstamped_revised (old c : Company) (b : Mutation) (t t' : Instant) :
    unstamped (.update c) b (revised old c t) = unstamped (.update c) b (revised old c t') := by
  simp [unstamped, revised, Mutation.stamped?]

theorem leaves_unstamped (s : Store) (a b : Mutation) (t t' : Instant) :
    (s.leaves t a).map (unstamped a b) = (s.leaves t' a).map (unstamped a b) := by
  unfold leaves
  rw [answer_eq, answer_eq]
  split
  · cases a with
    | create c => rfl
    | update c =>
      simp only [Mutation.rewrite, List.map_map]
      apply List.map_congr_left
      intro old _
      exact unstamped_revised old c b t t'
    | delete id => rfl
  · rfl

/-! ### Stores that hold the same -/

/-- Stores with the same users and the same companies, as far as a reading of them tells. -/
structure SameUpTo (reading : Company → Company) (s s' : Store) : Prop where
  users : s.users = s'.users
  found : ∀ id, (s.find? id).map reading = (s'.find? id).map reading
  companies : (s.companies.map reading).Perm (s'.companies.map reading)

theorem perm_of_filter_id {l l' : List Company}
    (h : ∀ id, l.filter (·.id = id) = l'.filter (·.id = id)) : l.Perm l' := by
  rw [List.perm_iff_count]
  intro c
  have hcount := congrArg (List.count c) (h c.id)
  rwa [List.count_filter (by simp), List.count_filter (by simp)] at hcount

theorem sameUpTo_of_under {reading : Company → Company} (hid : ∀ c, (reading c).id = c.id)
    (husers : s.users = s'.users)
    (hunder : ∀ id, (s.under id).map reading = (s'.under id).map reading) :
    SameUpTo reading s s' where
  users := husers
  found := by
    intro id
    rw [find?_eq_head?_under, find?_eq_head?_under, ← List.head?_map, ← List.head?_map, hunder]
  companies := by
    apply perm_of_filter_id
    intro id
    rw [List.filter_map, List.filter_map]
    simpa only [Function.comp_def, hid, under] using hunder id

/-- **Independent mutations commute.** Whatever the clock says at each of them, both answer the same in
either order, and the stores afterwards hold the same, up to the time of an update; where the clock says the
same in either order, they hold the same. -/
theorem independent_mutations_commute (h : Independent s a b) (t u t' u' : Instant) :
    (a.command t).answer s = (a.command t').answer (s.after (b.command u')) ∧
    (b.command u).answer (s.after (a.command t)) = (b.command u').answer s ∧
    SameUpTo (fun c => c) (s.run [a.command t, b.command u]) (s.run [b.command u, a.command t]) ∧
    SameUpTo (unstamped a b) (s.run [a.command t, b.command u])
      (s.run [b.command u', a.command t']) := by
  have husers : ∀ t u t' u', (s.run [a.command t, b.command u]).users =
      (s.run [b.command u', a.command t']).users := by
    intro t u t' u'
    simp only [run, users_after]
  refine ⟨(answer_after h).symm, answer_after h.symm, ?_, ?_⟩
  · apply sameUpTo_of_under (fun c => rfl) (husers t u t u)
    intro id
    rw [under_run_comm h]
  · apply sameUpTo_of_under (id_unstamped a b) (husers t u t' u')
    intro id
    rw [under_run_comm h, under_run h, under_run h]
    split_ifs
    · exact leaves_unstamped s a b t t'
    · rw [unstamped_comm]
      exact leaves_unstamped s b a u u'
    · rfl

/-- One company is renamed and another created, at different times; the store before has both another name
and another identifier. -/
theorem rename_and_creation_commute :
    let s := empty.run sampleCommands
    let rename := Mutation.update (sampleCompany 1 "apex")
    let creation := Mutation.create (sampleCompany 3 "zinc")
    Independent s rename creation ∧
    (rename.command laterInstant).answer (s.after (creation.command sampleInstant)) = .ok () ∧
    (creation.command laterInstant).answer (s.after (rename.command sampleInstant)) = .ok () ∧
    SameUpTo (unstamped rename creation)
      (s.run [rename.command sampleInstant, creation.command laterInstant])
      (s.run [creation.command sampleInstant, rename.command laterInstant]) := by
  intro s rename creation
  have hindependent : Independent s rename creation := by
    refine ⟨by decide, ?_, by decide, by decide⟩
    intro name hrename hcreation
    exact absurd (hrename.trans hcreation.symm) (by decide)
  obtain ⟨hrename, hcreation, -, hsame⟩ := independent_mutations_commute hindependent
    sampleInstant laterInstant laterInstant sampleInstant
  refine ⟨hindependent, ?_, ?_, hsame⟩
  · rw [← hrename]
    decide
  · rw [hcreation]
    decide

/-- A name that the other mutation takes out of the store makes the order matter. -/
example :
    let s := empty.run sampleCommands
    let rename := Command.update (sampleCompany 1 "brick") laterInstant
    let deletion := Command.delete (sampleCompany 2 "brick").id
    rename.answer s = .error (.alreadyExists "brick") ∧ rename.answer (s.after deletion) = .ok () := by
  decide

end CompanyRegistry.Store
