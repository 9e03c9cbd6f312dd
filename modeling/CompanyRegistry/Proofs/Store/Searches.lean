import CompanyRegistry.Store.Identities
import Mathlib.Logic.Function.Basic

/-!
# How the store searches its users

A condition holds of a user if the user has its column and the comparison is so (`Comparison.Holds`). The store
looks for a user who satisfies every condition of some group, in three nested searches that stop as soon as they
may. A condition on a column that users do not have has no answer, and it depends on the rows whether a search
comes to one.

`Verdict` puts what an item amounts to beside a search: yes, no, or that a column is missing. A list is searched
for an item that says no (`Verdict.all`) or for one that says yes (`Verdict.any`), and each way has one lemma
(`Tells.all_cons`, `Tells.any_cons`); the searches of the store are put together from them
(`anyUser_tells`).
-/

namespace CompanyRegistry

/-! ### Rows -/

/-- A column of the users. -/
inductive User.Column
  | id
  | username
  | isAdmin
  | sessionHours
  deriving DecidableEq

namespace User.Column

def name : Column → String
  | .id => "id"
  | .username => "username"
  | .isAdmin => "is_admin"
  | .sessionHours => "session_ttl"

def value (u : User) : Column → Value
  | .id => .int u.id
  | .username => .text u.username
  | .isAdmin => .bool u.isAdmin
  | .sessionHours => .int u.sessionHours.toInt64

def all : List Column := [.id, .username, .isAdmin, .sessionHours]

theorem mem_all (col : Column) : col ∈ all := by
  cases col <;> decide

theorem name_injective : Function.Injective name := by
  intro a b h
  cases a <;> cases b <;> simp_all [name]

end User.Column

/-- A condition is on a column that users have. -/
def Comparison.OnUsers {α : Type} (c : Comparison α) : Prop := ∃ col : User.Column, c.column = col.name

instance {α : Type} : DecidablePred (Comparison.OnUsers : Comparison α → Prop) := fun c =>
  decidable_of_iff (∃ col ∈ User.Column.all, c.column = col.name)
    ⟨fun ⟨col, _, h⟩ => ⟨col, h⟩, fun ⟨col, h⟩ => ⟨col, col.mem_all, h⟩⟩

/-- What a comparator says of two values. -/
def Comparator.Says : Comparator → Value → Value → Prop
  | .equal, a, b => a = b
  | .unequal, a, b => a ≠ b

theorem Comparator.holds_eq_true_iff {comparator : Comparator} {a b : Value} :
    comparator.holds a b = true ↔ comparator.Says a b := by
  cases comparator <;> simp [holds, Says]

/-- What a comparison says of a user, when these are the values of operands. -/
def Comparison.Holds {α : Type} (value : α → Value) (u : User) (c : Comparison α) : Prop :=
  ∃ col : User.Column, c.column = col.name ∧ c.comparator.Says (col.value u) (value c.operand)

/-- Two values have the same type. -/
def Value.SameType : Value → Value → Prop
  | .text _, .text _ | .int _, .int _ | .bool _, .bool _ => True
  | _, _ => False

namespace Comparison

variable {α : Type} {value : α → Value} {u : User} {c : Comparison α} {col : User.Column}

theorem holds_iff (hcol : c.column = col.name) :
    c.Holds value u ↔ c.comparator.Says (col.value u) (value c.operand) := by
  constructor
  · rintro ⟨col', hcol', h⟩
    obtain rfl := User.Column.name_injective (hcol'.symm.trans hcol)
    exact h
  · exact fun h => ⟨col, hcol, h⟩

theorem Holds.onUsers (h : c.Holds value u) : c.OnUsers := by
  obtain ⟨col, hcol, -⟩ := h
  exact ⟨col, hcol⟩

/-- Values of different types are unequal. -/
theorem holds_of_not_sameType (hcol : c.column = col.name)
    (htype : ¬ (col.value u).SameType (value c.operand)) :
    c.Holds value u ↔ c.comparator = .unequal := by
  have hne : col.value u ≠ value c.operand := by
    intro heq
    rw [← heq] at htype
    cases hvalue : col.value u <;> simp [hvalue, Value.SameType] at htype
  rw [holds_iff hcol]
  cases c.comparator <;> simp [Comparator.Says, hne]

end Comparison

/-! ### Verdicts -/

/-- A search that goes past items with `Past` comes to one with `At`. -/
def Meets {α : Type} (Past At : α → Prop) (l : List α) : Prop :=
  ∃ before x after, l = before ++ x :: after ∧ (∀ y ∈ before, Past y) ∧ At x

section Meets

variable {α : Type} {Past At : α → Prop} {x : α} {l : List α}

theorem not_meets_nil : ¬ Meets Past At [] := by
  rintro ⟨before, x, after, hl, -⟩
  simp at hl

theorem meets_cons : Meets Past At (x :: l) ↔ At x ∨ Past x ∧ Meets Past At l := by
  constructor
  · rintro ⟨before, y, after, hl, hbefore, hy⟩
    cases before with
    | nil =>
      obtain ⟨rfl, rfl⟩ := List.cons.inj hl
      exact Or.inl hy
    | cons first before =>
      obtain ⟨rfl, rfl⟩ := List.cons.inj hl
      rw [List.forall_mem_cons] at hbefore
      exact Or.inr ⟨hbefore.1, before, y, after, rfl, hbefore.2, hy⟩
  · rintro (hx | ⟨hx, before, y, after, rfl, hbefore, hy⟩)
    · exact ⟨[], x, l, rfl, by simp, hx⟩
    · exact ⟨x :: before, y, after, rfl, List.forall_mem_cons.mpr ⟨hx, hbefore⟩, hy⟩

theorem Meets.exists_mem (h : Meets Past At l) : ∃ x ∈ l, At x := by
  obtain ⟨before, x, after, rfl, -, hx⟩ := h
  exact ⟨x, by simp, hx⟩

end Meets

/-- What an item that is asked about amounts to: yes, no, or that the column of this name is missing. -/
structure Verdict (α : Type) where
  yes : α → Prop
  no : α → Prop
  missing : String → α → Prop

namespace Verdict

variable {α : Type}

/-- Whether all of some items say yes, up to the first that does not. -/
def all (v : Verdict α) : Verdict (List α) where
  yes l := ∀ x ∈ l, v.yes x
  no := Meets v.yes v.no
  missing name := Meets v.yes (v.missing name)

/-- The verdict on the opposite question. -/
def neg (v : Verdict α) : Verdict α where
  yes := v.no
  no := v.yes
  missing := v.missing

/-- Whether one of some items says yes, up to the first that does. -/
def any (v : Verdict α) : Verdict (List α) := v.neg.all.neg

end Verdict

namespace Store

/-- The error about a column that users do not have. -/
def noColumn (name : String) : ProbeError := .unsupported ("user has no column '" ++ name ++ "'")

/-- An answer is the verdict on an item. -/
structure Tells {α : Type} (answer : Except ProbeError Bool) (v : Verdict α) (x : α) : Prop where
  yes : answer = .ok true ↔ v.yes x
  no : answer = .ok false ↔ v.no x
  missing : ∀ e, answer = .error e ↔ ∃ name, v.missing name x ∧ e = noColumn name

namespace Tells

variable {α : Type} {v : Verdict α} {x : α} {l : List α} {answer rest : Except ProbeError Bool}

theorem all_nil : Tells (.ok true) v.all [] := by
  constructor
  case yes => simp [Verdict.all]
  case no => simp [Verdict.all, not_meets_nil]
  case missing => simp [Verdict.all, not_meets_nil]

theorem not_missing {b : Bool} (h : Tells (.ok b) v x) (name : String) : ¬ v.missing name x := by
  intro hname
  cases (h.missing (noColumn name)).mpr ⟨name, hname, rfl⟩

/-- A search for an item that says no ends there, or where a column is missing. -/
theorem all_cons (hx : Tells answer v x) (hl : Tells rest v.all l) :
    Tells (answer.bind (cond · rest (.ok false))) v.all (x :: l) := by
  rcases answer with e | _ | _
  · -- a column of the first item is missing
    have hyes : ¬ v.yes x := fun h => nomatch hx.yes.mpr h
    have hno : ¬ v.no x := fun h => nomatch hx.no.mpr h
    change Tells (.error e) v.all (x :: l)
    constructor
    case yes => simp [Verdict.all, hyes]
    case no => simp [Verdict.all, meets_cons, hyes, hno]
    case missing => simpa [Verdict.all, meets_cons, hyes] using hx.missing
  · -- the first item says no
    have hyes : ¬ v.yes x := fun h => nomatch hx.yes.mpr h
    have hno : v.no x := hx.no.mp rfl
    change Tells (.ok false) v.all (x :: l)
    constructor
    case yes => simp [Verdict.all, hyes]
    case no => simp [Verdict.all, meets_cons, hno]
    case missing => simp [Verdict.all, meets_cons, hyes, hx.not_missing]
  · -- the first item says yes, and the others are asked
    have hyes : v.yes x := hx.yes.mp rfl
    have hno : ¬ v.no x := fun h => nomatch hx.no.mpr h
    change Tells rest v.all (x :: l)
    constructor
    case yes => simpa [Verdict.all, hyes] using hl.yes
    case no => simpa [Verdict.all, meets_cons, hyes, hno] using hl.no
    case missing => simpa [Verdict.all, meets_cons, hyes, hx.not_missing] using hl.missing

theorem neg (h : Tells answer v x) : Tells (answer.map not) v.neg x := by
  obtain ⟨hyes, hno, hmissing⟩ := h
  cases answer with
  | error e =>
    constructor
    case yes => simpa [Except.map, Verdict.neg] using hno
    case no => simpa [Except.map, Verdict.neg] using hyes
    case missing => exact hmissing
  | ok b =>
    constructor
    case yes => simpa [Except.map, Verdict.neg] using hno
    case no => simpa [Except.map, Verdict.neg] using hyes
    case missing => simpa [Except.map, Verdict.neg] using hmissing

theorem any_nil : Tells (.ok false) v.any [] := all_nil.neg

/-- A search for an item that says yes ends there, or where a column is missing. -/
theorem any_cons (hx : Tells answer v x) (hl : Tells rest v.any l) :
    Tells (answer.bind (cond · (.ok true) rest)) v.any (x :: l) := by
  -- it is the search for an item that says no to the opposite question
  have hnotrest : Tells (rest.map not) v.neg.all l := hl.neg
  have hall := (hx.neg.all_cons hnotrest).neg
  rcases answer with e | _ | _
  · exact hall
  · have htwice : (rest.map not).map not = rest := by
      cases rest <;> simp [Except.map]
    change Tells ((rest.map not).map not) _ _ at hall
    rwa [htwice] at hall
  · exact hall

end Tells

variable {u : User} {c : Comparison Value} {groups : List (List (Comparison Value))}

/-! ### The searches of the store -/

theorem column_name (u : User) (col : User.Column) : column u col.name = .ok (col.value u) := by
  cases col <;> simp [column, User.Column.name, User.Column.value, Int64.ofInt_int32ToInt]

theorem column_eq_noColumn (u : User) (hcolumn : ¬ c.OnUsers) :
    column u c.column = .error (noColumn c.column) := by
  have hne : ∀ col : User.Column, c.column ≠ col.name := fun col hcol => hcolumn ⟨col, hcol⟩
  have hid : c.column ≠ "id" := hne .id
  have husername : c.column ≠ "username" := hne .username
  have hadmin : c.column ≠ "is_admin" := hne .isAdmin
  have hhours : c.column ≠ "session_ttl" := hne .sessionHours
  simp [column, noColumn, hid, husername, hadmin, hhours]

/-- What a condition amounts to for a user. -/
def onCondition (u : User) : Verdict (Comparison Value) where
  yes c := c.Holds id u
  no c := c.OnUsers ∧ ¬ c.Holds id u
  missing name c := ¬ c.OnUsers ∧ c.column = name

/-- What groups amount to for a user. -/
def onRow (groups : List (List (Comparison Value))) : Verdict User where
  yes u := (onCondition u).all.any.yes groups
  no u := (onCondition u).all.any.no groups
  missing name u := (onCondition u).all.any.missing name groups

theorem column_tells (u : User) (c : Comparison Value) :
    Tells ((column u c.column).map (c.comparator.holds · c.operand)) (onCondition u) c := by
  by_cases hcolumn : c.OnUsers
  · obtain ⟨col, hcol⟩ := id hcolumn
    have hholds : c.Holds id u ↔ c.comparator.holds (col.value u) c.operand = true :=
      (Comparison.holds_iff hcol).trans Comparator.holds_eq_true_iff.symm
    rw [hcol, column_name]
    constructor
    case yes => simp [Except.map, onCondition, hholds]
    case no => simp [Except.map, onCondition, hholds, hcolumn]
    case missing => simp [Except.map, onCondition, hcolumn]
  · have hholds : ¬ c.Holds id u := mt Comparison.Holds.onUsers hcolumn
    rw [column_eq_noColumn u hcolumn]
    constructor
    case yes => simp [Except.map, onCondition, hholds]
    case no => simp [Except.map, onCondition, hcolumn]
    case missing => simp [Except.map, onCondition, hcolumn, eq_comm]

theorem satisfiesAll_tells (u : User) (conditions : List (Comparison Value)) :
    Tells (satisfiesAll u conditions) (onCondition u).all conditions := by
  induction conditions with
  | nil => exact Tells.all_nil
  | cons c conditions ih =>
    have hsearch : satisfiesAll u (c :: conditions) =
        ((column u c.column).map (c.comparator.holds · c.operand)).bind
          (cond · (satisfiesAll u conditions) (.ok false)) := by
      rw [satisfiesAll]
      cases column u c.column with
      | error e => rfl
      | ok v => cases hv : c.comparator.holds v c.operand <;> simp [Except.map, Except.bind, hv]
    rw [hsearch]
    exact (column_tells u c).all_cons ih

theorem satisfiesSome_tells (u : User) (groups : List (List (Comparison Value))) :
    Tells (satisfiesSome u groups) (onCondition u).all.any groups := by
  induction groups with
  | nil => exact Tells.any_nil
  | cons g groups ih =>
    have hsearch : satisfiesSome u (g :: groups) =
        (satisfiesAll u g).bind (cond · (.ok true) (satisfiesSome u groups)) := by
      rw [satisfiesSome]
      rcases satisfiesAll u g with e | _ | _ <;> rfl
    rw [hsearch]
    exact (satisfiesAll_tells u g).any_cons ih

theorem anyUser_tells (groups : List (List (Comparison Value))) (users : List User) :
    Tells (anyUser groups users) (onRow groups).any users := by
  induction users with
  | nil => exact Tells.any_nil
  | cons u users ih =>
    have hsearch : anyUser groups (u :: users) =
        (satisfiesSome u groups).bind (cond · (.ok true) (anyUser groups users)) := by
      rw [anyUser]
      rcases satisfiesSome u groups with e | _ | _ <;> rfl
    have hu := satisfiesSome_tells u groups
    have hrow : Tells (satisfiesSome u groups) (onRow groups) u := ⟨hu.yes, hu.no, hu.missing⟩
    rw [hsearch]
    exact hrow.any_cons ih

variable {users : List User} {name : String}

theorem exists_holds_of_yes (h : (onRow groups).any.yes users) :
    ∃ u ∈ users, ∃ g ∈ groups, ∀ c ∈ g, c.Holds id u := by
  obtain ⟨u, hu, hrow⟩ := Meets.exists_mem h
  exact ⟨u, hu, Meets.exists_mem hrow⟩

theorem not_exists_of_no (h : (onRow groups).any.no users) :
    ¬ ∃ u ∈ users, ∃ g ∈ groups, ∀ c ∈ g, c.Holds id u := by
  rintro ⟨u, hu, g, hg, hall⟩
  obtain ⟨c, hc, -, hfails⟩ := Meets.exists_mem (h u hu g hg)
  exact hfails (hall c hc)

theorem exists_unknown_of_missing (h : (onRow groups).any.missing name users) :
    ∃ g ∈ groups, ∃ c ∈ g, ¬ c.OnUsers := by
  obtain ⟨u, -, hrow⟩ := Meets.exists_mem h
  obtain ⟨g, hg, hgroup⟩ := Meets.exists_mem hrow
  obtain ⟨c, hc, hcolumn, -⟩ := Meets.exists_mem hgroup
  exact ⟨g, hg, c, hc, hcolumn⟩

end Store

end CompanyRegistry
