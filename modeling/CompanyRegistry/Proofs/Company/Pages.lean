import CompanyRegistry.Company.Filters
import CompanyRegistry.Proofs.Text.Order
import Mathlib.Data.List.Nodup
import Mathlib.Data.String.Basic
import Mathlib.Tactic.SplitIfs

/-!
# Pages of companies

A question asks for a piece of one list, the matching companies ascending by name (`Filters.ordered`). As
long as no two companies share a name, that list depends on which companies there are and not on the order
in which they are kept (`ordered_eq_of_perm`), and the pages one after another are the list cut into pieces
(`flatMap_turned`): the first that is empty lies behind the last company (`turned_eq_nil_iff`).
-/

namespace CompanyRegistry.Company.Filters

/-- A company meets the conditions that a question gives. -/
structure Matches (f : Filters) (c : Company) : Prop where
  name : ∀ name ∈ f.name, c.name = name
  kind : ∀ kind ∈ f.kind, c.kind = kind
  registered : ∀ registered ∈ f.registered, c.registered = registered

/-- The matching companies, ascending by name. -/
def ordered (f : Filters) (companies : List Company) : List Company :=
  (companies.filter f.accepts).mergeSort fun a b => decide (a.name ≤ b.name)

/-- The question for the page of this number. -/
def turned (f : Filters) (i : Nat) : Filters :=
  { f with offset := UInt32.ofNat (i * f.effectiveLimit) }

variable {f : Filters} {c : Company} {companies companies' : List Company}

/-! ### Which companies match -/

theorem agrees_iff {α : Type} [DecidableEq α] {wanted : Option α} {a : α} :
    agrees wanted a = true ↔ ∀ w ∈ wanted, a = w := by
  cases wanted with
  | none => simp [agrees]
  | some w => simp [agrees, eq_comm]

theorem accepts_iff : f.accepts c = true ↔ f.Matches c := by
  simp only [accepts, Bool.and_eq_true, agrees_iff]
  constructor
  · rintro ⟨⟨hname, hkind⟩, hregistered⟩
    exact ⟨hname, hkind, hregistered⟩
  · rintro ⟨hname, hkind, hregistered⟩
    exact ⟨⟨hname, hkind⟩, hregistered⟩

theorem mem_ordered_iff : c ∈ f.ordered companies ↔ c ∈ companies ∧ f.Matches c := by
  rw [ordered, List.mem_mergeSort, List.mem_filter, accepts_iff]

/-! ### The order -/

theorem ordered_perm (f : Filters) (companies : List Company) :
    (f.ordered companies).Perm (companies.filter f.accepts) :=
  List.mergeSort_perm _ _

theorem ordered_names_nodup (h : (companies.map (·.name)).Nodup) :
    ((f.ordered companies).map (·.name)).Nodup := by
  have hfiltered : ((companies.filter f.accepts).map (·.name)).Nodup :=
    h.sublist (List.filter_sublist.map _)
  exact ((ordered_perm f companies).map _).nodup_iff.mpr hfiltered

/-- No two names are the same, so that what does not descend ascends. -/
theorem ordered_ascending (h : (companies.map (·.name)).Nodup) :
    (f.ordered companies).Pairwise fun a b => a.name < b.name := by
  have hsorted : (f.ordered companies).Pairwise fun a b => decide (a.name ≤ b.name) = true := by
    apply List.pairwise_mergeSort
    · intro a b c hab hbc
      simp only [decide_eq_true_eq] at hab hbc ⊢
      exact le_trans hab hbc
    · intro a b
      simpa using le_total a.name b.name
  have hdistinct : (f.ordered companies).Pairwise fun a b => a.name ≠ b.name :=
    List.pairwise_map.mp (ordered_names_nodup h)
  refine (hsorted.and hdistinct).imp ?_
  rintro a b ⟨hle, hne⟩
  exact lt_of_le_of_ne (of_decide_eq_true hle) hne

/-- The order in which companies are kept makes no difference. -/
theorem ordered_eq_of_perm (h : (companies.map (·.name)).Nodup)
    (hperm : companies'.Perm companies) : f.ordered companies' = f.ordered companies := by
  have h' : (companies'.map (·.name)).Nodup := (hperm.map _).nodup_iff.mpr h
  have hmatching : (f.ordered companies').Perm (f.ordered companies) :=
    ((ordered_perm f companies').trans (hperm.filter _)).trans (ordered_perm f companies).symm
  -- a permutation of an ascending list that ascends as well is the list itself
  refine hmatching.eq_of_pairwise ?_ (ordered_ascending h') (ordered_ascending h)
  intro a b _ _ hab hba
  exact absurd (lt_trans hab hba) (lt_irrefl _)

theorem ordered_nodup (h : (companies.map (·.name)).Nodup) : (f.ordered companies).Nodup :=
  List.Nodup.of_map _ (ordered_names_nodup h)

/-- A question that only one company answers finds it alone. -/
theorem ordered_eq_singleton (h : (companies.map (·.name)).Nodup) (hc : c ∈ companies)
    (honly : ∀ c' ∈ companies, f.Matches c' ↔ c' = c) : f.ordered companies = [c] := by
  apply List.perm_singleton.mp
  apply (List.perm_ext_iff_of_nodup (ordered_nodup h) (List.nodup_singleton c)).mpr
  intro c'
  rw [mem_ordered_iff, List.mem_singleton]
  constructor
  · rintro ⟨hc', hmatches⟩
    exact (honly c' hc').mp hmatches
  · rintro rfl
    exact ⟨hc, (honly c' hc).mpr rfl⟩

/-! ### The pages -/

theorem effectiveLimit_pos (f : Filters) : 0 < f.effectiveLimit := by
  unfold effectiveLimit
  split_ifs with h
  · decide
  · have hlimit : f.limit.toNat ≠ 0 := fun h0 => h (UInt32.toNat_inj.mp h0)
    exact lt_min (Nat.pos_of_ne_zero hlimit) (by decide)

theorem page_eq (f : Filters) (companies : List Company) :
    f.page companies = ((f.ordered companies).drop f.offset.toNat).take f.effectiveLimit := rfl

theorem turned_page {i : Nat} (h : i * f.effectiveLimit < 2 ^ 32) :
    (f.turned i).page companies =
      ((f.ordered companies).drop (i * f.effectiveLimit)).take f.effectiveLimit := by
  have hoffset : (f.turned i).offset.toNat = i * f.effectiveLimit := UInt32.toNat_ofNat_of_lt' h
  rw [page_eq, hoffset]
  rfl

theorem length_ordered (f : Filters) (companies : List Company) :
    (f.ordered companies).length = companies.countP f.accepts := by
  rw [(ordered_perm f companies).length_eq, List.countP_eq_length_filter]

theorem turned_eq_nil_iff {i : Nat} (h : i * f.effectiveLimit < 2 ^ 32) :
    (f.turned i).page companies = [] ↔
      companies.countP f.accepts ≤ i * f.effectiveLimit := by
  have hlimit := f.effectiveLimit_pos
  rw [turned_page h, List.take_eq_nil_iff, List.drop_eq_nil_iff, length_ordered]
  omega

/-- There is an offset behind the last company, unless more match than there are offsets for. -/
theorem exists_empty_page (h : companies.countP f.accepts + f.effectiveLimit ≤ 2 ^ 32) :
    ∃ k, k * f.effectiveLimit < 2 ^ 32 ∧ (f.turned k).page companies = [] := by
  have hlimit := f.effectiveLimit_pos
  generalize hcount : companies.countP f.accepts = count at h
  -- as many pages as it takes, the last one counted in full
  have hdivided := Nat.div_add_mod' (count + f.effectiveLimit - 1) f.effectiveLimit
  have hrest := Nat.mod_lt (count + f.effectiveLimit - 1) hlimit
  have hfits : (count + f.effectiveLimit - 1) / f.effectiveLimit * f.effectiveLimit < 2 ^ 32 := by
    omega
  refine ⟨_, hfits, (turned_eq_nil_iff hfits).mpr ?_⟩
  omega

/-- Pieces of one length, one after another, are a list as far as they go. -/
theorem flatMap_pieces {α : Type} (l : List α) (n k : Nat) :
    ((List.range k).flatMap fun i => (l.drop (i * n)).take n) = l.take (k * n) := by
  induction k with
  | zero => simp
  | succ k ih =>
    rw [List.range_succ, List.flatMap_append, ih, List.flatMap_singleton, Nat.succ_mul,
      List.take_add]

theorem flatMap_turned {k : Nat} (h : k * f.effectiveLimit < 2 ^ 32) :
    ((List.range k).flatMap fun i => (f.turned i).page companies) =
      (f.ordered companies).take (k * f.effectiveLimit) := by
  rw [← flatMap_pieces]
  apply List.flatMap_congr
  intro i hi
  apply turned_page
  exact lt_of_le_of_lt (Nat.mul_le_mul_right _ (List.mem_range.mp hi).le) h

/-- The pages up to an empty one hold each matching company once. -/
theorem flatMap_turned_of_nil {k : Nat} (h : k * f.effectiveLimit < 2 ^ 32)
    (hempty : (f.turned k).page companies = []) :
    ((List.range k).flatMap fun i => (f.turned i).page companies) = f.ordered companies := by
  rw [flatMap_turned h]
  apply List.take_of_length_le
  rw [length_ordered]
  exact (turned_eq_nil_iff h).mp hempty

end CompanyRegistry.Company.Filters
