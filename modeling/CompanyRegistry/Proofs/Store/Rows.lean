import CompanyRegistry.Proofs.Company.Records
import CompanyRegistry.Proofs.Outcome
import CompanyRegistry.Proofs.Store.Lifetimes
import CompanyRegistry.Store.Database

/-!
# Companies and their rows

A company has a row in the database exactly if its employees fit a column of 32 bits with a sign
(`exists_row_iff`). Then nothing is lost, since the company is read back from the row (`company_of_row`), and a
company that keeps the limits of the register has a row that keeps those of the table (`admitted_of_row`). The other
way round, every row that the table admits is one of a company (`exists_company_of_admitted`), so that reading the
table does not fail. A company without a row is refused before the pool is given anything (`write_of_not_fits`).
-/

namespace CompanyRegistry.Database

/-- The employees of a company fit their column. -/
def Fits (c : Company) : Prop := c.employees.toNat < 2 ^ 31

/-- What the table of the companies demands of a row, whoever writes it: a name of at most 15 characters, at least
one employee, one of four labels. -/
structure Row.Admitted (r : Row) : Prop where
  name : r.name.length ≤ 15
  employees : 0 < r.employees.toInt
  kind : r.kind ∈ ["corporation", "non_profit", "cooperative", "sole_proprietorship"]

variable {c : Company} {r : Row} {n : Int32}

/-! ### The column of the employees -/

theorem employees_eq_ok_iff : employees c = .ok n ↔ Fits c ∧ n.toInt = c.employees.toNat := by
  unfold employees
  split_ifs with hfits
  · have hwidth : c.employees.toNat < 2147483648 := hfits
    have hback : (Int32.ofInt c.employees.toNat).toInt = c.employees.toNat :=
      Int32.toInt_ofInt_of_le (by omega) (by omega)
    simp only [Except.ok.injEq]
    constructor
    · rintro rfl
      exact ⟨hfits, hback⟩
    · rintro ⟨-, hn⟩
      exact Int32.toInt_inj.mp (hback.trans hn.symm)
  · simp only [false_iff]
    rintro ⟨h, -⟩
    exact hfits h

theorem employees_of_not_fits (h : ¬ Fits c) :
    employees c = .error (.backend "employees_count out of range") :=
  if_neg h

theorem readEmployees_of_eq {k : UInt32} (h : n.toInt = k.toNat) : readEmployees n = .ok k := by
  unfold readEmployees
  rw [h, if_neg (by omega), Int.toNat_natCast, UInt32.ofNat_toNat]

theorem exists_employees (h : 0 ≤ n.toInt) : ∃ k : UInt32, n.toInt = k.toNat ∧ k.toNat < 2 ^ 31 := by
  have hwidth : n.toInt < 2 ^ 31 := n.toInt_lt
  have hsize : UInt32.size = 2 ^ 32 := rfl
  have hback : (UInt32.ofNat n.toInt.toNat).toNat = n.toInt.toNat :=
    UInt32.toNat_ofNat_of_lt' (by omega)
  exact ⟨UInt32.ofNat n.toInt.toNat, by omega, by omega⟩

/-! ### The column of the legal forms -/

theorem readKind_label (k : Company.Kind) : readKind k.label = .ok k := by
  rw [readKind, Company.kindOf, k.ofLabel?_label]
  rfl

theorem exists_kind_of_mem {label : String}
    (h : label ∈ ["corporation", "non_profit", "cooperative", "sole_proprietorship"]) :
    ∃ kind : Company.Kind, label = kind.label := by
  simp only [List.mem_cons, List.not_mem_nil, or_false] at h
  rcases h with rfl | rfl | rfl | rfl
  · exact ⟨.corporation, rfl⟩
  · exact ⟨.nonProfit, rfl⟩
  · exact ⟨.cooperative, rfl⟩
  · exact ⟨.soleProprietorship, rfl⟩

/-! ### Rows -/

theorem row_eq_ok_iff : row c = .ok r ↔ ∃ n, employees c = .ok n ∧
    r = ⟨c.id, c.name, c.description, n, c.registered, c.kind.label, c.createdAt, c.updatedAt⟩ := by
  unfold row
  rw [bind_eq_ok_iff]
  constructor
  · rintro ⟨n, hn, hr⟩
    exact ⟨n, hn, (Except.ok.inj hr).symm⟩
  · rintro ⟨n, hn, rfl⟩
    exact ⟨n, hn, rfl⟩

theorem exists_row_iff : (∃ r, row c = .ok r) ↔ Fits c := by
  constructor
  · rintro ⟨r, hr⟩
    obtain ⟨n, hn, -⟩ := row_eq_ok_iff.mp hr
    exact (employees_eq_ok_iff.mp hn).1
  · intro h
    have hn : employees c = .ok (Int32.ofInt c.employees.toNat) := if_pos h
    exact ⟨_, row_eq_ok_iff.mpr ⟨_, hn, rfl⟩⟩

theorem row_of_not_fits (h : ¬ Fits c) : row c = .error (.backend "employees_count out of range") := by
  rw [row, employees_of_not_fits h]
  rfl

theorem company_of_row (h : row c = .ok r) : r.company = .ok c := by
  obtain ⟨n, hn, rfl⟩ := row_eq_ok_iff.mp h
  obtain ⟨-, hvalue⟩ := employees_eq_ok_iff.mp hn
  simp only [Row.company, readEmployees_of_eq hvalue, readKind_label]
  rfl

/-- The limits of the register imply those of the table. -/
theorem admitted_of_row (hlimits : c.check = .ok ()) (h : row c = .ok r) : r.Admitted := by
  obtain ⟨n, hn, rfl⟩ := row_eq_ok_iff.mp h
  obtain ⟨-, hvalue⟩ := employees_eq_ok_iff.mp hn
  obtain ⟨-, hname, -, hsome⟩ := Company.check_eq_ok_iff.mp hlimits
  refine ⟨hname, ?_, ?_⟩
  · have hpos : c.employees.toNat ≠ 0 := fun h => hsome (UInt32.toNat_inj.mp h)
    simp only [hvalue]
    omega
  · change c.kind.label ∈ _
    cases c.kind <;> decide

/-- Whatever the table admits is read as a company, whose row it is. -/
theorem exists_company_of_admitted (h : r.Admitted) : ∃ c, r.company = .ok c ∧ row c = .ok r := by
  obtain ⟨id, name, description, n, registered, label, createdAt, updatedAt⟩ := r
  obtain ⟨-, hpos, hlabel⟩ := h
  obtain ⟨kind, rfl⟩ := exists_kind_of_mem hlabel
  obtain ⟨k, hvalue, hfits⟩ := exists_employees (Int.le_of_lt hpos)
  refine ⟨⟨id, name, description, k, registered, kind, createdAt, updatedAt⟩, ?_, ?_⟩
  · simp only [Row.company, readEmployees_of_eq hvalue, readKind_label]
    rfl
  · exact row_eq_ok_iff.mpr ⟨n, employees_eq_ok_iff.mpr ⟨hfits, hvalue⟩, rfl⟩

/-! ### Writes -/

section
variable {σ : Type} (pool : Pool σ) (w : Write) (db : σ)

theorem write_of_row (h : row c = .ok r) : write pool w c db =
    ((pool.execute (w.statement r) db).1.mapError (failure w.operation) >>= w.outcome,
      (pool.execute (w.statement r) db).2) := by
  rw [write, h]

theorem write_of_not_fits (h : ¬ Fits c) :
    write pool w c db = (.error (.backend "employees_count out of range"), db) := by
  rw [write, row_of_not_fits h]

end

end CompanyRegistry.Database
