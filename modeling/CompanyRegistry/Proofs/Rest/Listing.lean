import CompanyRegistry.Proofs.Company.Pages
import CompanyRegistry.Proofs.Rest.Runs

/-!
# Lists of companies

What a list of companies is, for every store that commands lead to: the pages of one ascending list
(`pages_are_of_one_list`). That the list does not depend on how companies are kept rests on their names,
which `Store.Distinct` keeps apart; that a company can be listed by its name, on names that are not empty,
which the checks of the calls see to (`call_list_byName`).
-/

namespace CompanyRegistry.Rest

/-! ### Listing by a name -/

theorem arrive_outage (files : Files) (s : Rpc.Server) (a : Arrival) :
    (arrive files s a).service.outage = s.service.outage := by
  rcases arrive_cases files s a with ⟨m, authorization, c, -, hafter⟩ | hsame
  · rw [hafter]
    rfl
  · rw [hsame]

theorem run_outage (files : Files) (s : Rpc.Server) (arrivals : List Arrival) :
    (run files s arrivals).service.outage = s.service.outage := by
  induction arrivals generalizing s with
  | nil => rfl
  | cons a arrivals ih => exact (ih (arrive files s a)).trans (arrive_outage files s a)

/-- The question for the companies of a name, with a limit but without other conditions. -/
def byName (name : String) (limit : UInt32) : Company.Filters where
  name := some name
  limit := limit

theorem readQuery_byName {name : String} (h : name ≠ "") (limit : UInt32) :
    Rpc.Service.readQuery { name, limit } = .ok (byName name limit) := by
  simp only [Rpc.Service.readQuery, if_neg h]
  rfl

theorem byName_matches_iff {name : String} {limit : UInt32} {c : Company} :
    (byName name limit).Matches c ↔ c.name = name := by
  constructor
  · intro h
    exact h.name name rfl
  · intro h
    refine ⟨?_, ?_, ?_⟩
    · intro name' hname'
      rw [h]
      exact Option.some.inj hname'
    · intro kind hkind
      cases hkind
    · intro registered hregistered
      cases hregistered

theorem list_byName {store : Store} (h : store.Distinct) {c : Company} (hc : c ∈ store.companies)
    (limit : UInt32) : store.list (byName c.name limit) = [c] := by
  have honly : (byName c.name limit).ordered store.companies = [c] := by
    apply Company.Filters.ordered_eq_singleton h.names hc
    intro c' hc'
    rw [byName_matches_iff]
    constructor
    · intro hname
      exact List.inj_on_of_nodup_map h.names hc' hc hname
    · rintro rfl
      rfl
  rw [Store.list, Company.Filters.page_eq, honly]
  exact List.take_of_length_le (Company.Filters.effectiveLimit_pos _)

theorem call_list_byName {s : Rpc.Server} (h : Sound s.service.store)
    (horder : s.service.outage.companies = none) {c : Company} (hc : c ∈ s.service.store.companies)
    (m : Rpc.Moment) (authorization : Option Bytes) (limit : UInt32) :
    (s.call m authorization (.list { name := c.name, limit })).1 =
      .ok (.listed [.ofCompany c]) := by
  have hname : c.name ≠ "" := by
    intro hempty
    obtain ⟨hblank, -⟩ := Company.check_eq_ok_iff.mp (h.checked c hc)
    rw [hempty] at hblank
    exact absurd hblank (by decide)
  change s.service.list _ = _
  simp only [Rpc.Service.list, readQuery_byName hname, horder, Rpc.Service.fromStorage]
  change Except.ok (Rpc.Reply.listed ((s.service.store.list (byName c.name limit)).map _)) = _
  rw [list_byName h.distinct hc limit]
  rfl

/-! ### The list and its pages -/

open Company.Filters in
/-- **Pages are cut from one list.** In every store that commands lead to, and for every question,

* the answer has companies that match, strictly ascending by the octets of their names, and is the same
  in whatever order the companies are kept;
* a limit of zero stands for fifty, and no other is exceeded, nor a thousand;
* the page of a number is empty exactly if all that match come before it; up to any empty page, the pages
  one after another hold every company that matches once, and there is one unless more match than there
  are offsets for.

In a server in memory that started without companies, whatever calls and requests have come, the name of a
company lists that company and no other. -/
theorem pages_are_of_one_list (cmds : List Store.Command) (f : Company.Filters) (key : Token.Key)
    (users : List User) (queue : Queue) (files : Files) (arrivals : List Arrival) :
    let store := Store.empty.run cmds
    let server := Rpc.Server.inMemory key { users } queue
    (∀ c ∈ store.list f, c ∈ store.companies ∧ f.Matches c) ∧
    ((store.list f).Pairwise fun a b => Bytes.utf8 a.name < Bytes.utf8 b.name) ∧
    (∀ companies', companies'.Perm store.companies → f.page companies' = store.list f) ∧
    (f.limit = 0 → f.effectiveLimit = 50) ∧
    (f.limit ≠ 0 → f.effectiveLimit = min f.limit.toNat 1000) ∧
    (∀ k, k * f.effectiveLimit < 2 ^ 32 →
      (store.list (f.turned k) = [] ↔ store.companies.countP f.accepts ≤ k * f.effectiveLimit)) ∧
    (∀ k, k * f.effectiveLimit < 2 ^ 32 → store.list (f.turned k) = [] →
      let all := (List.range k).flatMap fun i => store.list (f.turned i)
      all.Nodup ∧ ∀ c, c ∈ all ↔ c ∈ store.companies ∧ f.Matches c) ∧
    (store.companies.countP f.accepts + f.effectiveLimit ≤ 2 ^ 32 →
      ∃ k, k * f.effectiveLimit < 2 ^ 32 ∧ store.list (f.turned k) = []) ∧
    ∀ c ∈ stored files server arrivals, ∀ m authorization limit,
      ((run files server arrivals).call m authorization (.list { name := c.name, limit })).1 =
        .ok (.listed [.ofCompany c]) := by
  intro store server
  have hdistinct : store.Distinct :=
    (Store.run_induction Store.empty_orderly Store.Orderly.apply cmds).distinct
  have hsub : (store.list f).Sublist (f.ordered store.companies) :=
    (List.take_sublist _ _).trans (List.drop_sublist _ _)
  refine ⟨?_, ?_, ?_, ?_, ?_, ?_, ?_, ?_, ?_⟩
  · intro c hc
    exact mem_ordered_iff.mp (hsub.subset hc)
  · apply ((ordered_ascending hdistinct.names).sublist hsub).imp
    intro a b
    exact Bytes.utf8_lt_utf8
  · intro companies' hperm
    rw [Store.list, page_eq, page_eq, ordered_eq_of_perm hdistinct.names hperm]
  · intro hlimit
    exact if_pos hlimit
  · intro hlimit
    exact if_neg hlimit
  · intro k hk
    exact turned_eq_nil_iff hk
  · intro k hk hempty
    have hall : ((List.range k).flatMap fun i => store.list (f.turned i)) =
        f.ordered store.companies := flatMap_turned_of_nil hk hempty
    rw [hall]
    exact ⟨ordered_nodup hdistinct.names, fun c => mem_ordered_iff⟩
  · exact exists_empty_page
  · intro c hc m authorization limit
    apply call_list_byName (run_sound (sound_of_nil rfl)) ?_ hc
    rw [run_outage]
    rfl

/-- A page for each of the two companies of a store, and none behind them; the company that the user of the
sample run creates is listed by its name. -/
theorem a_page_for_each_company :
    let store := Store.empty.run Store.sampleCommands
    let f : Company.Filters := { limit := 1 }
    (store.list (f.turned 1) ≠ [] ∧ store.list (f.turned 2) = []) ∧
    (∀ c, c ∈ (List.range 2).flatMap (fun i => store.list (f.turned i)) ↔
      c ∈ store.companies ∧ f.Matches c) ∧
    ∃ c, ((run {} Rpc.sampleServer ([.ofTurn Rpc.nobodysTurn] ++ [.ofTurn Rpc.adasTurn])).call
        Rpc.sampleMoment none (.list { name := c.name, limit := 0 })).1 =
      .ok (.listed [.ofCompany c]) := by
  intro store f
  obtain ⟨-, -, -, -, hlimit, hempty, hpages, -, hname⟩ := pages_are_of_one_list
    Store.sampleCommands f Rpc.sampleKey [Rpc.ada] (Queue.start (.fresh ⟨"", []⟩ {} 0) {}) {}
    ([.ofTurn Rpc.nobodysTurn] ++ [.ofTurn Rpc.adasTurn])
  have hone : f.effectiveLimit = 1 := hlimit (by decide)
  have hcount : store.companies.countP f.accepts = 2 := by decide
  have hfits : ∀ k, k < 3 → k * f.effectiveLimit < 2 ^ 32 := by
    intro k hk
    rw [hone]
    omega
  have hsecond : ¬ store.list (f.turned 1) = [] := by
    rw [hempty 1 (hfits 1 (by decide)), hcount, hone]
    decide
  have hthird : store.list (f.turned 2) = [] := by
    rw [hempty 2 (hfits 2 (by decide)), hcount, hone]
  obtain ⟨-, hall⟩ := hpages 2 (hfits 2 (by decide)) hthird
  obtain ⟨c, hc, -⟩ := acme_is_stored
  exact ⟨⟨hsecond, hthird⟩, hall, c, hname c hc Rpc.sampleMoment none 0⟩

end CompanyRegistry.Rest
