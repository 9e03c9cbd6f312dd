import CompanyRegistry.Proofs.Store.Probes

/-!
# Columns that users do not have

The store gives no answer to a probe exactly when its search comes to a column that users do not have
(`Store.ComesTo`), and any answer that it gives is the one to the groups that name none
(`unknown_columns_grant_nothing`). It does not follow that such a column is always noticed: a group that is
satisfied hides those after it (`an_unknown_column_is_passed_over`).
-/

namespace CompanyRegistry

/-- The probe with only those of its groups whose columns users all have. -/
def Probe.onUserColumns (p : Probe) : Probe :=
  { p with groups := p.groups.filter fun g => ∀ c ∈ g, c.OnUsers }

namespace Store

/-! ### What a probe comes to -/

/-- The first condition of the group that does not hold of the user is on a column that users have. -/
def Refuses (u : User) : List (Comparison Value) → Prop :=
  Meets (·.Holds id u) fun c => c.OnUsers ∧ ¬ c.Holds id u

/-- The search comes to a condition on a column of this name, which users do not have: the conditions before it
hold of a user, the groups before refuse this user, and all groups refuse the users before. -/
def ComesTo (s : Store) (p : Probe) (name : String) : Prop :=
  Meets (fun u => ∀ g ∈ p.groups, Refuses u g)
    (fun u => Meets (Refuses u) (Meets (·.Holds id u) fun c => ¬ c.OnUsers ∧ c.column = name) p.groups)
    s.users

variable {s : Store} {p : Probe}

theorem probe_tells (s : Store) (htable : p.entity.table = "user") :
    Tells (s.probe p) (onRow p.groups).any s.users := by
  rw [probe, if_neg (not_not.mpr htable)]
  exact anyUser_tells p.groups s.users

theorem probe_eq_error_iff (htable : p.entity.table = "user") {e : ProbeError} :
    s.probe p = .error e ↔ ∃ name, s.ComesTo p name ∧ e = noColumn name :=
  (probe_tells s htable).missing e

/-- Groups that name a column which users do not have make no difference to an answer. -/
theorem probe_onUserColumns {b : Bool} (htable : p.entity.table = "user") (h : s.probe p = .ok b) :
    s.probe p.onUserColumns = .ok b := by
  have hmem : ∀ g, g ∈ p.onUserColumns.groups ↔ g ∈ p.groups ∧ ∀ c ∈ g, c.OnUsers := by
    intro g
    simp [Probe.onUserColumns]
  have hanswers := anyUser_answers s.users fun g hg => ((hmem g).mp hg).2
  have htable' : ¬ p.onUserColumns.entity.table ≠ "user" := not_not.mpr htable
  rw [probe, if_neg htable']
  cases b with
  | true =>
    obtain ⟨u, hu, g, hg, hall⟩ := exists_holds_of_yes ((probe_tells s htable).yes.mp h)
    have hcolumns : ∀ c ∈ g, c.OnUsers := fun c hc => (hall c hc).onUsers
    exact hanswers.true_iff.mpr ⟨u, hu, g, (hmem g).mpr ⟨hg, hcolumns⟩, hall⟩
  | false =>
    refine hanswers.false_iff.mpr ?_
    rintro ⟨u, hu, g, hg, hall⟩
    exact not_exists_of_no ((probe_tells s htable).no.mp h) ⟨u, hu, g, ((hmem g).mp hg).1, hall⟩

/-- **Unknown columns grant nothing.** A probe on the users has no answer exactly if the search comes to a column
that users do not have, and the error names it. Any answer is the one to the groups whose columns users all have,
so a probe of which every group names another column is never answered with yes. A column that stands first is
always come to, unless there are no users, when nothing is. -/
theorem unknown_columns_grant_nothing (htable : p.entity.table = "user") (s : Store) :
    (∀ e, s.probe p = .error e ↔ ∃ name, s.ComesTo p name ∧ e = noColumn name) ∧
    (∀ b, s.probe p = .ok b → s.probe p.onUserColumns = .ok b) ∧
    ((∀ g ∈ p.groups, ∃ c ∈ g, ¬ c.OnUsers) → s.probe p ≠ .ok true) ∧
    (∀ c g groups, p.groups = (c :: g) :: groups → ¬ c.OnUsers → s.users ≠ [] →
      s.probe p = .error (noColumn c.column)) ∧
    (s.users = [] → s.probe p = .ok false) := by
  refine ⟨fun e => probe_eq_error_iff htable, fun b => probe_onUserColumns htable, ?_, ?_, ?_⟩
  · intro hgroups hyes
    obtain ⟨u, -, g, hg, hall⟩ := exists_holds_of_yes ((probe_tells s htable).yes.mp hyes)
    obtain ⟨c, hc, hcolumn⟩ := hgroups g hg
    exact hcolumn (hall c hc).onUsers
  · intro c g groups hgroups hcolumn husers
    obtain ⟨u, users, husers⟩ := List.exists_cons_of_ne_nil husers
    refine (probe_eq_error_iff htable).mpr ⟨c.column, ?_, rfl⟩
    rw [ComesTo, husers, hgroups, meets_cons, meets_cons, meets_cons]
    exact Or.inl (Or.inl (Or.inl ⟨hcolumn, rfl⟩))
  · intro husers
    rw [probe, if_neg (not_not.mpr htable), husers]
    rfl

/-! Users have no mail addresses. The first probe asks for one only of those who are no administrators; the rule
allows who has either the name or the address. -/

def memberWithEmail : Probe :=
  ⟨"member", ⟨"user", "u"⟩, [[⟨"is_admin", .equal, .bool false⟩, ⟨"email", .equal, .text "bob"⟩]]⟩

def nameOrEmail : Rule :=
  (Rule.denyAll "name_or_email" ⟨"user", "u"⟩).allow .user [
    [⟨"username", .equal, .claim .username⟩],
    [⟨"email", .equal, .claim .username⟩]]

def bobByNameOrEmail : Probe :=
  ⟨"name_or_email", ⟨"user", "u"⟩, [
    [⟨"username", .equal, .text "bob"⟩],
    [⟨"email", .equal, .text "bob"⟩]]⟩

def bobAlone : Store where
  users := [⟨1, "bob", "", false, 0, leapDay, leapDay⟩]

/-- The administrator is passed over, and then Bob's address is missing; whoever the users are, nobody has it.
Bob is allowed by his name just as if no address had been asked for. -/
theorem bob_has_no_email :
    memberWithEmail.entity.table = "user" ∧
    (∃ name, adminAndBob.ComesTo memberWithEmail name ∧ noColumn "email" = noColumn name) ∧
    (∀ s : Store, s.probe memberWithEmail ≠ .ok true) ∧
    Store.empty.probe memberWithEmail = .ok false ∧
    bobAlone.probe bobByNameOrEmail.onUserColumns = .ok true := by
  have htable : memberWithEmail.entity.table = "user" := rfl
  have htable' : bobByNameOrEmail.entity.table = "user" := rfl
  have hmissing : adminAndBob.probe memberWithEmail = .error (noColumn "email") := by decide
  have hgroups : ∀ g ∈ memberWithEmail.groups, ∃ c ∈ g, ¬ c.OnUsers := by decide
  have hallowed : bobAlone.probe bobByNameOrEmail = .ok true := by decide
  obtain ⟨hcomesTo, -⟩ := unknown_columns_grant_nothing htable adminAndBob
  obtain ⟨-, -, -, -, hnobody⟩ := unknown_columns_grant_nothing htable .empty
  obtain ⟨-, hknown, -⟩ := unknown_columns_grant_nothing htable' bobAlone
  refine ⟨rfl, (hcomesTo _).mp hmissing, ?_, hnobody rfl, hknown true hallowed⟩
  intro s
  exact (unknown_columns_grant_nothing htable s).2.2.1 hgroups

/-- Not every probe that names a column which users do not have is an error: Bob is allowed by his name before
his address is asked for. -/
theorem an_unknown_column_is_passed_over :
    ¬ ∀ (s : Store) (r : Rule) (claims : Claims) (p : Probe), r.bind claims = some p →
      p.entity.table = "user" → (∃ g ∈ p.groups, ∃ c ∈ g, ¬ c.OnUsers) →
      ∃ e, s.probe p = .error e := by
  intro hcloses
  have hunknown : ∃ g ∈ bobByNameOrEmail.groups, ∃ c ∈ g, ¬ c.OnUsers := by decide
  obtain ⟨e, he⟩ := hcloses bobAlone nameOrEmail bobClaims bobByNameOrEmail rfl rfl hunknown
  have hallowed : bobAlone.probe bobByNameOrEmail = .ok true := by decide
  rw [hallowed] at he
  cases he

end Store

end CompanyRegistry
