import CompanyRegistry.Proofs.Event.Moves
import CompanyRegistry.Proofs.Rest.Requests
import CompanyRegistry.Proofs.Rpc.Payloads
import CompanyRegistry.Proofs.Store.Lifetimes

/-!
# What calls and requests lead to

A server answers calls of the contract and requests to its JSON side in any order (`Arrival`). One arrival
at a time, the store is as it was or has made a change that some call asked for and was told of
(`arrive_store`). So whatever all changes keep, every run keeps: the companies of a server that started
without any are acceptable and distinct (`run_sound`), and nothing but an answered deletion makes one of
them another (`companies_are_kept`).
-/

namespace CompanyRegistry.Rest

/-- What comes to a server: a call of the contract, a request to its JSON side, or something that happens
to the queue meanwhile. -/
inductive Arrival
  | call (m : Rpc.Moment) (authorization : Option Bytes) (c : Rpc.Call)
  | request (m : Rpc.Moment) (q : Http.Request)
  | queue (a : Queue.Action)

/-- The server after an arrival. -/
def arrive (files : Files) (s : Rpc.Server) : Arrival → Rpc.Server
  | .call m authorization c => (s.call m authorization c).2
  | .request m q => (site files m q s).2
  | .queue a => { s with queue := s.queue.act a }

/-- The server after arrivals, one after another. -/
def run (files : Files) (s : Rpc.Server) (arrivals : List Arrival) : Rpc.Server :=
  arrivals.foldl (arrive files) s

/-- An arrival makes a call, for itself or by the request that describes it. -/
inductive Arrival.Makes : Arrival → Rpc.Moment → Option Bytes → Rpc.Call → Prop
  | call {m : Rpc.Moment} {authorization : Option Bytes} {c : Rpc.Call} :
      Makes (.call m authorization c) m authorization c
  | request {m : Rpc.Moment} {q : Http.Request} {c : Rpc.Call} (hreads : Reads q c) :
      Makes (.request m q) m (carried q.headers) c

/-- A call that an arrival makes at a server deletes this company, and is told so. -/
def Deletes (s : Rpc.Server) (id : Company.Id) (a : Arrival) : Prop :=
  ∃ m authorization text, a.Makes m authorization (.delete text) ∧
    Company.Id.parse text = .ok id ∧ (s.call m authorization (.delete text)).1 = .ok .deleted

/-- None of some arrivals deletes this company. -/
def Spares (files : Files) (s : Rpc.Server) (id : Company.Id) (arrivals : List Arrival) : Prop :=
  ∀ before a after, arrivals = before ++ a :: after → ¬ Deletes (run files s before) id a

variable {files : Files} {s : Rpc.Server} {a : Arrival} {arrivals : List Arrival}

/-! ### One arrival -/

theorem arrive_of_makes {m : Rpc.Moment} {authorization : Option Bytes} {c : Rpc.Call}
    (h : a.Makes m authorization c) : arrive files s a = (s.call m authorization c).2 := by
  cases h with
  | call => rfl
  | request hreads => exact congrArg Prod.snd (serve_of_reads hreads files m s)

theorem arrive_cases (files : Files) (s : Rpc.Server) (a : Arrival) :
    (∃ m authorization c, a.Makes m authorization c ∧
      arrive files s a = (s.call m authorization c).2) ∨
    (arrive files s a).service = s.service := by
  cases a with
  | call m authorization c => exact Or.inl ⟨m, authorization, c, .call, rfl⟩
  | request m q =>
    by_cases hreads : ∃ c, Reads q c
    · obtain ⟨c, hc⟩ := hreads
      exact Or.inl ⟨m, _, c, .request hc, arrive_of_makes (.request hc)⟩
    · refine Or.inr ?_
      change (site files m q s).2.service = _
      rw [site_of_not_reads (not_exists.mp hreads)]
  | queue => exact Or.inr rfl

/-- An arrival leaves the store as it was, or makes a call whose change the store has taken. -/
theorem arrive_store (files : Files) (s : Rpc.Server) (a : Arrival) :
    (arrive files s a).service.store = s.service.store ∨
    ∃ m authorization c ch, a.Makes m authorization c ∧ Rpc.Asks m c ch ∧
      (s.call m authorization c).1 = .ok ch.reply ∧
      ch.command.apply s.service.store = .ok (arrive files s a).service.store := by
  rcases arrive_cases files s a with ⟨m, authorization, c, hmakes, hafter⟩ | hsame
  · rw [hafter]
    rcases s.service.handle_store m authorization c with ⟨ch, hcommits, hanswer⟩ | ⟨hsame, -⟩
    · refine Or.inr ⟨m, authorization, c, ch, hmakes, hcommits.asked, hanswer, ?_⟩
      rw [← ch.apply_eq]
      exact hcommits.taken
    · exact Or.inl hsame
  · exact Or.inl (congrArg Rpc.Service.store hsame)

/-! ### Companies are acceptable and distinct -/

/-- The companies of a store are acceptable, and none is kept twice. -/
structure Sound (store : Store) : Prop where
  checked : store.Checked
  distinct : store.Distinct

theorem checked_of_asks {m : Rpc.Moment} {c : Rpc.Call} {ch : Rpc.Change} (h : Rpc.Asks m c ch) :
    ch.command.Checked := by
  cases h with
  | create _ _ hlimits | update _ _ hlimits => exact hlimits
  | delete => trivial

theorem arrive_sound (h : Sound s.service.store) : Sound (arrive files s a).service.store := by
  rcases arrive_store files s a with hsame | ⟨m, authorization, c, ch, -, hasks, -, htaken⟩
  · rw [hsame]
    exact h
  · exact ⟨h.checked.apply (checked_of_asks hasks) htaken, h.distinct.apply htaken⟩

theorem run_sound (h : Sound s.service.store) : Sound (run files s arrivals).service.store := by
  induction arrivals generalizing s with
  | nil => exact h
  | cons a arrivals ih => exact ih (arrive_sound h)

theorem sound_of_nil {store : Store} (h : store.companies = []) : Sound store := by
  refine ⟨?_, ?_, ?_⟩
  · intro c hc
    rw [h] at hc
    cases hc
  · rw [h]
    exact List.nodup_nil
  · rw [h]
    exact List.nodup_nil

/-! ### Births -/

theorem arrive_births {id : Company.Id} {t : Instant} (h : (id, t) ∈ s.service.store.births)
    (hspared : ¬ Deletes s id a) : (id, t) ∈ (arrive files s a).service.store.births := by
  rcases arrive_store files s a with hsame | ⟨m, authorization, c, ch, hmakes, hasks, hanswer, htaken⟩
  · rw [hsame]
    exact h
  · rcases Store.mem_births_apply htaken h with hkept | hdeleted
    · exact hkept
    · -- the only changes that delete are those of a deletion, and this one was answered well
      cases hasks with
      | create | update => cases hdeleted
      | delete hid =>
        cases hdeleted
        exact absurd ⟨m, authorization, _, hmakes, hid, hanswer⟩ hspared

theorem Spares.head {id : Company.Id} (h : Spares files s id (a :: arrivals)) :
    ¬ Deletes s id a :=
  h [] a arrivals rfl

theorem Spares.tail {id : Company.Id} (h : Spares files s id (a :: arrivals)) :
    Spares files (arrive files s a) id arrivals := by
  intro before b after hsplit
  exact h (a :: before) b after (congrArg (a :: ·) hsplit)

theorem run_births {id : Company.Id} {t : Instant} (h : (id, t) ∈ s.service.store.births)
    (hspared : Spares files s id arrivals) :
    (id, t) ∈ (run files s arrivals).service.store.births := by
  induction arrivals generalizing s with
  | nil => exact h
  | cons a arrivals ih => exact ih (arrive_births h hspared.head) hspared.tail

theorem run_append (files : Files) (s : Rpc.Server) (arrivals more : List Arrival) :
    run files s (arrivals ++ more) = run files (run files s arrivals) more :=
  List.foldl_append

/-- A company that is created has the identifier in the answer, and was created at the moment of the
call. -/
theorem born_of_created (files : Files) {m : Rpc.Moment} {authorization : Option Bytes}
    {company : Option Rpc.Record} {text : String}
    (hmakes : a.Makes m authorization (.create company))
    (hanswer : (s.call m authorization (.create company)).1 = .ok (.created text)) :
    ∃ c ∈ (arrive files s a).service.store.companies, c.id.text = text ∧ c.createdAt = m.now := by
  rw [arrive_of_makes hmakes]
  obtain ⟨ch, ⟨-, hasked, -, htaken⟩, hreply⟩ := Rpc.Service.commits_of_ok hanswer trivial
  cases hasked with
  | create =>
    obtain ⟨-, -, hstore⟩ := Store.create_eq_ok_iff.mp htaken
    refine ⟨_, ?_, (Rpc.Reply.created.inj hreply).symm, rfl⟩
    change _ ∈ (s.service.handle m authorization _).store.companies
    rw [hstore]
    exact List.mem_append_right _ (List.mem_singleton.mpr rfl)

/-- A company that is deleted is gone. -/
theorem gone_of_deletes {id : Company.Id} (h : Deletes s id a) :
    ∀ c ∈ (arrive files s a).service.store.companies, c.id ≠ id := by
  obtain ⟨m, authorization, text, hmakes, hid, hanswer⟩ := h
  rw [arrive_of_makes hmakes]
  obtain ⟨ch, ⟨-, hasked, -, htaken⟩, -⟩ := Rpc.Service.commits_of_ok hanswer trivial
  cases hasked with
  | delete hid' =>
    cases hid.symm.trans hid'
    exact Store.find?_eq_none_iff.mp ((Store.find?_delete htaken id).trans (if_pos rfl))

/-! ### Runs of a server that starts without companies -/

/-- The companies after arrivals. -/
def stored (files : Files) (s : Rpc.Server) (arrivals : List Arrival) : List Company :=
  (run files s arrivals).service.store.companies

/-- **Companies are acceptable, and keep their identifier and the time of their creation.** Whatever calls
and requests have come to a server that started without companies,

* every company has a name that is not blank and has at most fifteen characters, a description of at most
  three thousand, and some employees;
* a call or request that is answered well creates a company at its moment, under the identifier in the
  answer, or deletes the company that it names;
* whatever else comes, a company stays, the only one under its identifier, with the time of its creation,
  until it is deleted. -/
theorem companies_are_kept (s : Rpc.Server) (hempty : s.service.store.companies = [])
    (files : Files) (arrivals : List Arrival) :
    (∀ c ∈ stored files s arrivals, (∃ x ∈ c.name.toList, Text.isBlank x = false) ∧
      c.name.length ≤ 15 ∧ c.description.length ≤ 3000 ∧ 0 < c.employees) ∧
    (∀ a m authorization company text, a.Makes m authorization (.create company) →
      ((run files s arrivals).call m authorization (.create company)).1 = .ok (.created text) →
      ∃ c ∈ stored files s (arrivals ++ [a]), c.id.text = text ∧ c.createdAt = m.now) ∧
    (∀ a id, Deletes (run files s arrivals) id a →
      ∀ c ∈ stored files s (arrivals ++ [a]), c.id ≠ id) ∧
    ∀ c ∈ stored files s arrivals, ∀ more, Spares files (run files s arrivals) c.id more →
      ∃ c' ∈ stored files s (arrivals ++ more), c'.id = c.id ∧ c'.createdAt = c.createdAt ∧
        ∀ other ∈ stored files s (arrivals ++ more), other.id = c.id → other = c' := by
  have hsound : ∀ arrivals, Sound (run files s arrivals).service.store :=
    fun _ => run_sound (sound_of_nil hempty)
  refine ⟨?_, ?_, ?_, ?_⟩
  · intro c hc
    obtain ⟨hname, hshort, hdescription, hemployees⟩ :=
      Company.check_eq_ok_iff.mp ((hsound arrivals).checked c hc)
    exact ⟨Text.allBlank_eq_false_iff.mp hname, hshort, hdescription,
      UInt32.pos_iff_ne_zero.mpr hemployees⟩
  · intro a m authorization company text hmakes hanswer
    rw [stored, run_append]
    exact born_of_created files hmakes hanswer
  · intro a id hdeletes
    rw [stored, run_append]
    exact gone_of_deletes hdeletes
  · intro c hc more hspares
    have hborn : (c.id, c.createdAt) ∈ (run files s arrivals).service.store.births :=
      Store.mem_births_iff.mpr ⟨c, hc, rfl, rfl⟩
    have hkept := run_births hborn hspares
    rw [← run_append] at hkept
    obtain ⟨c', hc', hid, hcreated⟩ := Store.mem_births_iff.mp hkept
    refine ⟨c', hc', hid, hcreated, ?_⟩
    intro other hother hsame
    exact List.inj_on_of_nodup_map (hsound (arrivals ++ more)).distinct.ids hother hc'
      (hsame.trans hid.symm)

/-! A sample: the runs of nobody and the user, whose update comes a minute after the creation. -/

def Arrival.ofTurn (t : Rpc.Turn) : Arrival := .call t.moment t.authorization t.call

theorem ofTurn_makes (t : Rpc.Turn) : (Arrival.ofTurn t).Makes t.moment t.authorization t.call :=
  .call

theorem run_nobodysTurn : run {} Rpc.sampleServer [.ofTurn Rpc.nobodysTurn] = Rpc.adasTurn.before :=
  rfl

theorem adasTurn_call :
    Rpc.adasTurn.call = .create (some { name := "Acme", employees := 1, kind := 1 }) := rfl

theorem acme_is_stored :
    ∃ c ∈ stored {} Rpc.sampleServer ([.ofTurn Rpc.nobodysTurn] ++ [.ofTurn Rpc.adasTurn]),
      c.id.text = "07070707-0707-0707-0707-070707070707" ∧ c.createdAt = Rpc.noon := by
  have hmakes := ofTurn_makes Rpc.adasTurn
  have hanswer := Rpc.adasTurn_answered
  rw [adasTurn_call] at hmakes
  rw [Rpc.Turn.answer, adasTurn_call, ← run_nobodysTurn] at hanswer
  obtain ⟨c, hc, htext, hborn⟩ := born_of_created {} hmakes hanswer
  refine ⟨c, ?_, htext, hborn⟩
  rw [stored, run_append]
  exact hc

/-- The update is answered well and leaves the time of the creation. -/
theorem acme_was_created_at_noon : Rpc.adasUpdate.answer.isOk ∧
    ∃ c ∈ stored {} Rpc.sampleServer
        ([.ofTurn Rpc.nobodysTurn] ++ [.ofTurn Rpc.adasTurn] ++ [.ofTurn Rpc.adasUpdate]),
      c.id.text = "07070707-0707-0707-0707-070707070707" ∧ c.createdAt = Rpc.noon := by
  obtain ⟨hupdated, -⟩ := Rpc.adasUpdate_answered
  obtain ⟨c, hc, htext, hborn⟩ := acme_is_stored
  obtain ⟨-, -, -, hstays⟩ := companies_are_kept Rpc.sampleServer rfl {}
    ([.ofTurn Rpc.nobodysTurn] ++ [.ofTurn Rpc.adasTurn])
  have hspared : Spares {} (run {} Rpc.sampleServer
      ([.ofTurn Rpc.nobodysTurn] ++ [.ofTurn Rpc.adasTurn])) c.id [.ofTurn Rpc.adasUpdate] := by
    intro before a after hsplit hdeletes
    obtain ⟨m, authorization, text, hupdate, -⟩ := hdeletes
    have ha : a ∈ [Arrival.ofTurn Rpc.adasUpdate] := by simp [hsplit]
    rw [List.mem_singleton.mp ha] at hupdate
    cases hupdate
  obtain ⟨c', hc', hid, hcreated, -⟩ := hstays c hc _ hspared
  exact ⟨hupdated, c', hc', (congrArg Company.Id.text hid).trans htext, hcreated.trans hborn⟩

end CompanyRegistry.Rest
