import CompanyRegistry.Proofs.Company.Records
import CompanyRegistry.Proofs.Rpc.Turns
import CompanyRegistry.Proofs.Store.Commands

/-!
# What the events carry

The event of a company that is created or updated carries the JSON text of a record. That record is the one
that the call describes, dated by the clock when the call is handled. For a creation it is the record that
the store shows afterwards. For an update it is not: the store keeps the creation time it had and dates the
change by a clock reading of its own (`payloads_against_the_store`), and so the log is told another
creation time than the register shows (`an_update_is_told_otherwise`).
-/

namespace CompanyRegistry.Rpc

/-- The event carries this record, and names it. -/
def Carries (e : Event) (c : Company) : Prop :=
  e.entity = c.id.text ∧ Json.decodeText Company.ofJson e.payload = .ok c

theorem carries_ofCompany (kind : EventKind) (c : Company) : Carries (.ofCompany kind c) c := by
  constructor
  · rfl
  · simp only [Event.ofCompany, Company.decodeText_jsonText]

theorem Carries.unique {e : Event} {c c' : Company} (h : Carries e c) (h' : Carries e c') :
    c = c' :=
  Except.ok.inj (h.2.symm.trans h'.2)

/-- The calls that store a company. -/
def Call.Stores : Call → Prop
  | .create _ | .update _ => True
  | _ => False

/-- The event of a turn carries the record that the store shows after it. -/
def Turn.Mirrors (t : Turn) : Prop :=
  ∃ e c, t.handed = some e ∧ Carries e c ∧ t.after.service.store.get c.id = .ok c

namespace Turn

theorem mirrors_iff {t : Turn} {e : Event} {c : Company} (hhanded : t.handed = some e)
    (hcarries : Carries e c) : t.Mirrors ↔ t.after.service.store.get c.id = .ok c := by
  constructor
  · rintro ⟨e', c', hhanded', hcarries', hget⟩
    cases hhanded.symm.trans hhanded'
    rwa [hcarries.unique hcarries']
  · intro hget
    exact ⟨e, c, hhanded, hcarries, hget⟩

section
variable {key : Token.Key} {store : Store} {queue : Queue} {t : Turn} {company : Option Record}

/-- A turn that is answered well has made the change that it asks for. -/
theorem of_isOk (hbefore : t.before = Server.inMemory key store queue) (hchanges : t.call.Changes)
    (hok : t.answer.isOk) :
    ∃ ch, Makes key store t.moment t.authorization t.call ch t.after.service.store ∧
      t.handed = some ch.event := by
  rcases cases hbefore with
    ⟨-, ch, hmakes, -, hhanded⟩ | ⟨-, -, ⟨status, hanswer⟩, -⟩ | ⟨hnot, -⟩
  · exact ⟨ch, hmakes, hhanded⟩
  · rw [hanswer] at hok
    cases hok
  · exact absurd hchanges hnot

theorem carries_created (hbefore : t.before = Server.inMemory key store queue)
    (hcall : t.call = .create company) (hok : t.answer.isOk) :
    ∃ e c, t.handed = some e ∧ e.kind = .created ∧ Carries e c ∧
      t.after.service.store.get c.id = .ok c := by
  have hchanges : t.call.Changes := by
    rw [hcall]
    trivial
  obtain ⟨ch, ⟨-, hasked, htaken⟩, hhanded⟩ := of_isOk hbefore hchanges hok
  rw [hcall] at hasked
  cases hasked with
  | create hid hkind hlimits =>
    refine ⟨_, _, hhanded, rfl, carries_ofCompany _ _, ?_⟩
    rw [Store.get_eq_ok_iff, Store.find?_create htaken, if_pos rfl]

theorem carries_updated (hbefore : t.before = Server.inMemory key store queue)
    (hcall : t.call = .update company) (hok : t.answer.isOk) :
    ∃ e c old, t.handed = some e ∧ e.kind = .updated ∧ Carries e c ∧
      c.createdAt = t.moment.now ∧ c.updatedAt = t.moment.now ∧
      t.before.service.store.get c.id = .ok old ∧
      t.after.service.store.get c.id = .ok (Store.revised old c t.moment.stored) := by
  have hchanges : t.call.Changes := by
    rw [hcall]
    trivial
  obtain ⟨ch, ⟨-, hasked, htaken⟩, hhanded⟩ := of_isOk hbefore hchanges hok
  rw [hcall] at hasked
  cases hasked with
  | update hid hkind hlimits =>
    obtain ⟨-, ⟨old, hold⟩, -⟩ := Store.update_eq_ok_iff.mp htaken
    have hstore : t.before.service.store = store := congrArg (·.service.store) hbefore
    refine ⟨_, _, old, hhanded, rfl, carries_ofCompany _ _, rfl, rfl, ?_, ?_⟩
    · rw [hstore]
      exact Store.get_eq_ok_iff.mpr hold
    · rw [Store.get_eq_ok_iff, Store.find?_update htaken, if_pos rfl, hold]
      rfl

end

end Turn

theorem revised_eq_self_iff {old c : Company} {stored : Instant} :
    Store.revised old c stored = c ↔ old.createdAt = c.createdAt ∧ stored = c.updatedAt := by
  constructor
  · intro h
    have hcreated := congrArg Company.createdAt h
    have hupdated := congrArg Company.updatedAt h
    exact ⟨hcreated, hupdated⟩
  · rintro ⟨hcreated, rfl⟩
    rw [Store.revised, hcreated]

/-- **Payloads against the store.** In every run of a server in memory, the event of a `Create` that is
answered well carries the record that the store shows afterwards under its identifier. The event of an
`Update` that is answered well carries the record that the call describes, created and changed when the
call is handled; the store shows the same record but for two fields: created when the record before it was,
changed when it was stored. So the two agree exactly if these times do. -/
theorem payloads_against_the_store {key : Token.Key} {store : Store} {queue : Queue}
    {inputs : List Input} {t : Turn} (ht : t ∈ (Server.inMemory key store queue).turns inputs)
    (hok : t.answer.isOk) :
    (∀ company, t.call = .create company → ∃ e c, t.handed = some e ∧ e.kind = .created ∧
      Carries e c ∧ t.after.service.store.get c.id = .ok c) ∧
    (∀ company, t.call = .update company → ∃ e c old, t.handed = some e ∧ e.kind = .updated ∧
      Carries e c ∧ c.createdAt = t.moment.now ∧ c.updatedAt = t.moment.now ∧
      t.before.service.store.get c.id = .ok old ∧
      t.after.service.store.get c.id =
        .ok { c with createdAt := old.createdAt, updatedAt := t.moment.stored } ∧
      (t.Mirrors ↔ old.createdAt = t.moment.now ∧ t.moment.stored = t.moment.now)) := by
  obtain ⟨store', queue', hbefore⟩ := Server.mem_turns ht
  refine ⟨fun company hcall => Turn.carries_created hbefore hcall hok, ?_⟩
  intro company hcall
  obtain ⟨e, c, old, hhanded, hkind, hcarries, hcreated, hupdated, hold, hnew⟩ :=
    Turn.carries_updated hbefore hcall hok
  refine ⟨e, c, old, hhanded, hkind, hcarries, hcreated, hupdated, hold, hnew, ?_⟩
  rw [Turn.mirrors_iff hhanded hcarries, hnew, Except.ok.injEq, revised_eq_self_iff, hcreated,
    hupdated]

/-! The sample run goes on: a minute later, the user changes the company. -/

def aMinuteLater : Instant := ⟨noon.date, 43260, 0, by decide⟩

def adasUpdate : Turn where
  before := adasTurn.after
  moment := { sampleMoment with now := aMinuteLater, stored := aMinuteLater }
  authorization := adasTurn.authorization
  call := .update (some
    { id := sampleMoment.fresh.text, name := "Acme", employees := 2, kind := 1 })

def revisingInputs : List Input :=
  [nobodysTurn, adasTurn, adasUpdate].map fun t => .call t.moment t.authorization t.call

theorem sampleServer_revisingTurns :
    sampleServer.turns revisingInputs = [nobodysTurn, adasTurn, adasUpdate] := rfl

theorem adasTurn_mem : adasTurn ∈ sampleServer.turns revisingInputs := by
  rw [sampleServer_revisingTurns]
  exact List.mem_cons_of_mem _ List.mem_cons_self

theorem adasUpdate_mem : adasUpdate ∈ sampleServer.turns revisingInputs := by
  rw [sampleServer_revisingTurns]
  exact List.mem_cons_of_mem _ (List.mem_cons_of_mem _ List.mem_cons_self)

theorem adasUpdate_before : adasUpdate.before =
    .inMemory sampleKey { companies := [acme], users := [ada] }
      (Server.tell sampleServer.queue (some (Change.event (.create acme)))) :=
  (Turn.of_makes adasTurn_before adasTurn_makes).2.1

theorem adasUpdate_makes :
    ∃ c stored store', Makes sampleKey { companies := [acme], users := [ada] } adasUpdate.moment
      adasUpdate.authorization adasUpdate.call (.update c stored) store' := by
  have hid : Company.Id.parse sampleMoment.fresh.text = .ok sampleMoment.fresh := by decide
  exact ⟨_, _, _, ada_mayChange List.mem_cons_self ⟨by decide, by decide⟩, .update hid rfl rfl, rfl⟩

theorem adasUpdate_answered : adasUpdate.answer.isOk ∧
    ∀ c ∈ adasUpdate.before.service.store.companies, c.createdAt = noon := by
  obtain ⟨c, stored, store', hmakes⟩ := adasUpdate_makes
  obtain ⟨hanswer, -⟩ := Turn.of_makes adasUpdate_before hmakes
  rw [hanswer, adasUpdate_before]
  refine ⟨rfl, ?_⟩
  intro c hc
  rw [List.mem_singleton.mp hc]
  rfl

/-- The creation is told as it is kept, the change a minute later is not. -/
theorem adas_update_is_not_mirrored :
    (∃ e c, adasTurn.handed = some e ∧ e.kind = .created ∧ Carries e c ∧
      adasTurn.after.service.store.get c.id = .ok c) ∧
    (∃ e c, adasUpdate.handed = some e ∧ e.kind = .updated ∧ Carries e c ∧
      c.createdAt = aMinuteLater ∧
      adasUpdate.after.service.store.get c.id = .ok { c with createdAt := noon }) ∧
    ¬ adasUpdate.Mirrors := by
  have hcreated : adasTurn.answer.isOk := by
    rw [adasTurn_answered]
    rfl
  obtain ⟨hupdated, hnoon⟩ := adasUpdate_answered
  obtain ⟨hcreate, -⟩ := payloads_against_the_store adasTurn_mem hcreated
  obtain ⟨-, hupdate⟩ := payloads_against_the_store adasUpdate_mem hupdated
  obtain ⟨e, c, old, hhanded, hkind, hcarries, hnow, hstored, hold, hnew, hmirrors⟩ :=
    hupdate _ rfl
  have holdnoon : old.createdAt = noon :=
    hnoon old (Store.mem_of_find? (Store.get_eq_ok_iff.mp hold))
  refine ⟨hcreate _ rfl, ⟨e, c, hhanded, hkind, hcarries, hnow, ?_⟩, ?_⟩
  · rw [hnew, holdnoon]
    exact congrArg (fun t => Except.ok { c with createdAt := noon, updatedAt := t }) hstored.symm
  · rw [hmirrors, holdnoon]
    rintro ⟨hsame, -⟩
    revert hsame
    decide

/-- Not every company that is stored is told as it is kept: the change of the sample run is told with
another creation time than the store shows. -/
theorem an_update_is_told_otherwise :
    ¬ ∀ (key : Token.Key) (cmds : List Store.Command) (queue : Queue) (inputs : List Input),
      ∀ t ∈ (Server.inMemory key (Store.empty.run cmds) queue).turns inputs,
        t.call.Stores → t.answer.isOk → t.Mirrors := by
  intro hmirrors
  obtain ⟨hupdated, hnoon⟩ := adasUpdate_answered
  have hmirrored : adasUpdate.Mirrors :=
    hmirrors sampleKey [.createUser "ada" "" false 1 noon] _ revisingInputs adasUpdate
      adasUpdate_mem trivial hupdated
  obtain ⟨e, c, old, hhanded, -, hcarries, hnow, -, hold, hnew⟩ :=
    Turn.carries_updated rfl rfl hupdated
  have holdnoon : old.createdAt = noon :=
    hnoon old (Store.mem_of_find? (Store.get_eq_ok_iff.mp hold))
  rw [Turn.mirrors_iff hhanded hcarries, hnew, Except.ok.injEq, revised_eq_self_iff] at hmirrored
  have hsame : noon = aMinuteLater := holdnoon.symm.trans (hmirrored.1.trans hnow)
  revert hsame
  decide

end CompanyRegistry.Rpc
