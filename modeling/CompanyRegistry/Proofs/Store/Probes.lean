import CompanyRegistry.Proofs.Store.Searches
import Mathlib.Data.List.Forall2

/-!
# What a probe answers

A rule means one thing: some row satisfies every condition of some group (`Rule.Grants`), whatever the order of
rows, groups and conditions. `Answers` ties an answer to a statement: where all columns are known, the search for
such a row ends with one (`anyUser_answers`), and two answers to the same question are equal
(`Answers.unique`).

`probe_finds_a_row` says so of every rule on users whose conditions name no column that they do not have.
-/

namespace CompanyRegistry

/-! ### Rules -/

namespace Rule

/-- The groups of conditions that a rule has for a kind of bearer. -/
def groupsFor (r : Rule) (s : Subject) : List Group :=
  match r.policy s with
  | .deny => []
  | .allow groups => groups

/-- Some row satisfies every condition of some group. -/
def Grants (r : Rule) (claims : Claims) (users : List User) : Prop :=
  ∃ u ∈ users, ∃ g ∈ r.groupsFor claims.subject, ∀ c ∈ g, c.Holds (·.value claims) u

/-- The same groups in another order, with the conditions of each in another order. -/
def Reordered (groups groups' : List Group) : Prop :=
  ∃ between, groups.Perm between ∧ List.Forall₂ List.Perm between groups'

theorem bind_eq_some_iff {r : Rule} {claims : Claims} {p : Probe} :
    r.bind claims = some p ↔ r.policy claims.subject = .allow (r.groupsFor claims.subject) ∧
      p = ⟨r.name, r.entity, (r.groupsFor claims.subject).map (·.map (bindCondition claims))⟩ := by
  unfold bind groupsFor
  cases r.policy claims.subject with
  | deny => simp
  | allow groups => simp [eq_comm]

variable {groups groups' : List Group}

theorem Reordered.exists_iff (h : Reordered groups groups') (P : Condition → Prop) :
    (∃ g ∈ groups, ∀ c ∈ g, P c) ↔ ∃ g ∈ groups', ∀ c ∈ g, P c := by
  obtain ⟨between, hperm, hgroups⟩ := h
  simp only [hperm.mem_iff]
  clear hperm
  induction hgroups with
  | nil => simp
  | cons hgroup _ ih => simp only [List.exists_mem_cons_iff, hgroup.mem_iff, ih]

theorem Reordered.forall_iff (h : Reordered groups groups') (P : Condition → Prop) :
    (∀ g ∈ groups, ∀ c ∈ g, P c) ↔ ∀ g ∈ groups', ∀ c ∈ g, P c := by
  obtain ⟨between, hperm, hgroups⟩ := h
  simp only [hperm.mem_iff]
  clear hperm
  induction hgroups with
  | nil => simp
  | cons hgroup _ ih => simp only [List.forall_mem_cons, hgroup.mem_iff, ih]

end Rule

/-! ### Answers -/

namespace Store

/-- An answer says whether something is so, and is one. -/
def Answers (answer : Except ProbeError Bool) (P : Prop) : Prop :=
  answer = .ok true ∧ P ∨ answer = .ok false ∧ ¬ P

namespace Answers

variable {answer answer' : Except ProbeError Bool} {P Q : Prop}

theorem congr (h : Answers answer P) (hPQ : P ↔ Q) : Answers answer Q := by
  rwa [Answers, ← hPQ]

theorem true_iff (h : Answers answer P) : answer = .ok true ↔ P := by
  rcases h with ⟨rfl, hP⟩ | ⟨rfl, hP⟩
  · simp [hP]
  · simp [hP]

theorem false_iff (h : Answers answer P) : answer = .ok false ↔ ¬ P := by
  rcases h with ⟨rfl, hP⟩ | ⟨rfl, hP⟩
  · simp [hP]
  · simp [hP]

theorem unique (h : Answers answer P) (h' : Answers answer' P) : answer = answer' := by
  rcases h with ⟨rfl, hP⟩ | ⟨rfl, hP⟩
  · exact (h'.true_iff.mpr hP).symm
  · exact (h'.false_iff.mpr hP).symm

end Answers

variable {u : User}

/-- Where all columns are known the search ends with an answer. -/
theorem anyUser_answers {groups : List (List (Comparison Value))} (users : List User)
    (hcolumns : ∀ g ∈ groups, ∀ c ∈ g, c.OnUsers) :
    Answers (anyUser groups users) (∃ u ∈ users, ∃ g ∈ groups, ∀ c ∈ g, c.Holds id u) := by
  have htells := anyUser_tells groups users
  cases hanswer : anyUser groups users with
  | error e =>
    obtain ⟨name, hmissing, -⟩ := (htells.missing e).mp hanswer
    obtain ⟨g, hg, c, hc, hcolumn⟩ := exists_unknown_of_missing hmissing
    exact absurd (hcolumns g hg c hc) hcolumn
  | ok b =>
    cases b with
    | true => exact Or.inl ⟨rfl, exists_holds_of_yes (htells.yes.mp hanswer)⟩
    | false => exact Or.inr ⟨rfl, not_exists_of_no (htells.no.mp hanswer)⟩

/-! ### Probes -/

theorem holds_bindCondition (claims : Claims) (c : Condition) :
    (Rule.bindCondition claims c).Holds id u ↔ c.Holds (·.value claims) u := Iff.rfl

/-- A rule that is bound asks whether it grants. -/
theorem probe_answers (s : Store) {r : Rule} {claims : Claims} {p : Probe}
    (hbind : r.bind claims = some p) (htable : r.entity.table = "user")
    (hcolumns : ∀ g ∈ r.groupsFor claims.subject, ∀ c ∈ g, c.OnUsers) :
    Answers (s.probe p) (r.Grants claims s.users) := by
  obtain ⟨-, rfl⟩ := Rule.bind_eq_some_iff.mp hbind
  rw [probe, if_neg (not_not.mpr htable)]
  refine (anyUser_answers s.users ?_).congr ?_
  · simp only [List.forall_mem_map]
    exact hcolumns
  · simp only [List.mem_map, exists_exists_and_eq_and, forall_exists_index, and_imp,
      forall_apply_eq_imp_iff₂, holds_bindCondition]
    rfl

theorem probe_of_other_table (s : Store) {p : Probe} (h : p.entity.table ≠ "user") :
    s.probe p = .error (.unsupported ("unknown entity '" ++ p.entity.table ++ "'")) := by
  rw [probe, if_pos h]

/-- **A probe finds a row.** A rule on users that is bound to claims, and whose conditions are on columns that
users have, is answered in every store: with yes if some one user satisfies every condition of some group,
and with no if none does. So an empty group asks only for a user at all, a comparison of values of different
types is an inequality, no user satisfies a rule where there are none, and the order of users, of groups and of
conditions in their groups does not matter. On any other table a probe has no answer in any store. -/
theorem probe_finds_a_row :
    (∀ {r : Rule} {claims : Claims} {p : Probe}, r.bind claims = some p → r.entity.table = "user" →
      (∀ g ∈ r.groupsFor claims.subject, ∀ c ∈ g, c.OnUsers) →
      (∀ s : Store,
        (s.probe p = .ok true ↔ r.Grants claims s.users) ∧
        (s.probe p = .ok false ↔ ¬ r.Grants claims s.users) ∧
        (s.users = [] → s.probe p = .ok false) ∧
        ([] ∈ r.groupsFor claims.subject → s.users ≠ [] → s.probe p = .ok true)) ∧
      ∀ (s s' : Store) {r' : Rule} {p' : Probe}, s.users.Perm s'.users →
        r'.bind claims = some p' → r'.entity.table = "user" →
        Rule.Reordered (r.groupsFor claims.subject) (r'.groupsFor claims.subject) →
        s'.probe p' = s.probe p) ∧
    (∀ (claims : Claims) (u : User) (c : Condition) (col : User.Column), c.column = col.name →
      ¬ (col.value u).SameType (c.operand.value claims) →
      (c.Holds (·.value claims) u ↔ c.comparator = .unequal)) ∧
    ∀ (s : Store) (q : Probe), q.entity.table ≠ "user" →
      s.probe q = .error (.unsupported ("unknown entity '" ++ q.entity.table ++ "'")) := by
  refine ⟨?_, ?_, fun s q => probe_of_other_table s⟩
  · intro r claims p hbind htable hcolumns
    refine ⟨?_, ?_⟩
    · intro s
      have hanswers := probe_answers s hbind htable hcolumns
      refine ⟨hanswers.true_iff, hanswers.false_iff, ?_, ?_⟩
      · intro hnone
        refine hanswers.false_iff.mpr ?_
        rintro ⟨u, hu, -⟩
        rw [hnone] at hu
        cases hu
      · intro hempty hsome
        obtain ⟨u, hu⟩ := List.exists_mem_of_ne_nil _ hsome
        exact hanswers.true_iff.mpr ⟨u, hu, [], hempty, by simp⟩
    · intro s s' r' p' husers hbind' htable' hreordered
      have hcolumns' := (hreordered.forall_iff Comparison.OnUsers).mp hcolumns
      have hgrants : r'.Grants claims s'.users ↔ r.Grants claims s.users := by
        unfold Rule.Grants
        simp only [husers.mem_iff, hreordered.exists_iff]
      exact ((probe_answers s' hbind' htable' hcolumns').congr hgrants).unique
        (probe_answers s hbind htable hcolumns)
  · intro claims u c col hcol htype
    exact Comparison.holds_of_not_sameType hcol htype

/-! Two users, of whom one is an administrator, and a rule for administrators. The second group compares a name
with a number. -/

def leapDay : Instant := ⟨⟨2024, 2, 29, by decide⟩, 61, 0, by decide⟩

def adminAndBob : Store where
  users := [⟨1, "admin", "", true, 0, leapDay, leapDay⟩,
    ⟨2, "bob", "", false, 0, leapDay, leapDay⟩]

def nameIsNumber : Condition := ⟨"username", .equal, .claim .userId⟩

def adminRule : Rule :=
  (Rule.denyAll "admin" ⟨"user", "u"⟩).allow .user [
    [⟨"username", .equal, .claim .username⟩, ⟨"is_admin", .equal, .literal (.bool true)⟩],
    [nameIsNumber]]

/-- The same rule with its groups, and the conditions of the first, the other way round. -/
def adminRule' : Rule :=
  (Rule.denyAll "admin" ⟨"user", "u"⟩).allow .user [
    [nameIsNumber],
    [⟨"is_admin", .equal, .literal (.bool true)⟩, ⟨"username", .equal, .claim .username⟩]]

def bobClaims : Claims := ⟨.user, 2, "bob", "as", "as", 0, 10⟩

def bobProbe : Probe :=
  ⟨"admin", ⟨"user", "u"⟩, [
    [⟨"username", .equal, .text "bob"⟩, ⟨"is_admin", .equal, .bool true⟩],
    [⟨"username", .equal, .int 2⟩]]⟩

def bobProbe' : Probe :=
  ⟨"admin", ⟨"user", "u"⟩, [
    [⟨"username", .equal, .int 2⟩],
    [⟨"is_admin", .equal, .bool true⟩, ⟨"username", .equal, .text "bob"⟩]]⟩

/-- One row has Bob's name and another is an administrator's, which does not make Bob one; nor does his number,
since it is no name. -/
theorem bob_is_no_administrator :
    (adminRule.bind bobClaims = some bobProbe ∧ adminRule.entity.table = "user" ∧
      ∀ g ∈ adminRule.groupsFor .user, ∀ c ∈ g, c.OnUsers) ∧
    ¬ adminRule.Grants bobClaims adminAndBob.users ∧
    adminAndBob.probe bobProbe = .ok false ∧
    Store.probe { users := adminAndBob.users.reverse } bobProbe' = .ok false ∧
    (∀ u : User, ¬ nameIsNumber.Holds (·.value bobClaims) u) ∧
    adminAndBob.probe ⟨"admin", ⟨"api_key", "k"⟩, []⟩ =
      .error (.unsupported "unknown entity 'api_key'") := by
  obtain ⟨hfinds, htypes, hother⟩ := probe_finds_a_row
  have hbind : adminRule.bind bobClaims = some bobProbe := rfl
  have hcolumns : ∀ g ∈ adminRule.groupsFor .user, ∀ c ∈ g, c.OnUsers := by decide
  obtain ⟨hanswer, horder⟩ := hfinds hbind rfl hcolumns
  have hno : adminAndBob.probe bobProbe = .ok false := by decide
  refine ⟨⟨hbind, rfl, hcolumns⟩, (hanswer adminAndBob).2.1.mp hno, hno, ?_, ?_, ?_⟩
  · have hreordered : Rule.Reordered (adminRule.groupsFor .user) (adminRule'.groupsFor .user) :=
      ⟨_, .swap _ _ _, .cons (.refl _) (.cons (.swap _ _ _) .nil)⟩
    have hbind' : adminRule'.bind bobClaims = some bobProbe' := rfl
    have hsame := horder adminAndBob { users := adminAndBob.users.reverse }
      (List.reverse_perm _).symm hbind' rfl hreordered
    exact hsame.trans hno
  · intro u
    rw [htypes bobClaims u nameIsNumber .username rfl id]
    decide
  · exact hother adminAndBob ⟨"admin", ⟨"api_key", "k"⟩, []⟩ (by decide)

end Store

end CompanyRegistry
