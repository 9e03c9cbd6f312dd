import CompanyRegistry.Proofs.Event.Moves
import CompanyRegistry.Proofs.Rpc.Changes
import CompanyRegistry.Rpc.Server
import Mathlib.Data.List.Forall2

/-!
# Runs of a server

A server answers calls one after another while things happen to its queue. `Server.turns` is the list of
its turns, each a call with the server that answers it; what the turn answers, leaves and hands to the
queue follows from these (`Turn.answer`, `Turn.after`, `Turn.handed`).

A server that starts with a store in memory keeps its key and has a store in memory at each turn
(`mem_turns`). Hence a turn is one of three (`Turn.cases`): a change that is made, a change that is not,
a call that asks for none. Both results about runs are read off there:

* `only_known_users_change`: nothing is changed or told but for the bearer of a user's token.
* `changes_are_announced`: the events handed to the queue are those of the changes answered well.
-/

namespace CompanyRegistry.Rpc

/-- What comes to a server: a call, with its moment and its authorisation, or something that happens to
the queue meanwhile. -/
inductive Input
  | call (m : Moment) (authorization : Option Bytes) (c : Call)
  | queue (a : Queue.Action)

/-- A call, with the server that answers it. -/
structure Turn where
  before : Server
  moment : Moment
  authorization : Option Bytes
  call : Call

namespace Turn

/-- The answer to the call. -/
def answer (t : Turn) : Except Status Reply := (t.before.call t.moment t.authorization t.call).1

/-- The server after the call. -/
def after (t : Turn) : Server := (t.before.call t.moment t.authorization t.call).2

/-- The event that the call hands to the queue. -/
def handed (t : Turn) : Option Event :=
  (t.before.service.handle t.moment t.authorization t.call).event

end Turn

namespace Server

theorem tell_of_none {queue : Queue} {event : Option Event} (h : event = none) :
    tell queue event = queue := by
  rw [h]
  rfl

theorem tell_of_some {queue : Queue} {event : Option Event} {e : Event} (h : event = some e) :
    tell queue event = (queue.notify e).2 := by
  rw [h]
  rfl

/-- A server with everything in memory. -/
def inMemory (key : Token.Key) (store : Store) (queue : Queue) : Server :=
  ⟨Service.inMemory key store, queue⟩

/-- The turns of a server. -/
def turns : Server → List Input → List Turn
  | _, [] => []
  | s, .call m authorization c :: inputs =>
    ⟨s, m, authorization, c⟩ :: (s.call m authorization c).2.turns inputs
  | s, .queue a :: inputs => turns { s with queue := s.queue.act a } inputs

/-- At each of its turns, a server in memory has the key that it started with and a store in memory, and what
every call preserves of the store still holds of it. -/
theorem mem_turns_of_preserved {key : Token.Key} {P : Store → Prop}
    (hP : ∀ {store : Store} (m : Moment) (authorization : Option Bytes) (c : Call), P store →
      P ((Service.inMemory key store).handle m authorization c).store)
    {inputs : List Input} {t : Turn} :
    ∀ {store : Store} {queue : Queue}, P store → t ∈ (inMemory key store queue).turns inputs →
      ∃ store' queue', t.before = inMemory key store' queue' ∧ P store' := by
  -- each input leaves another store and another queue, so the claim is for all of them
  induction inputs with
  | nil =>
    intro store queue hstore ht
    cases ht
  | cons input inputs ih =>
    intro store queue hstore ht
    cases input with
    | call m authorization c =>
      rcases List.mem_cons.mp ht with rfl | hlater
      · exact ⟨store, queue, rfl, hstore⟩
      · exact ih (hP m authorization c hstore) hlater
    | queue a => exact ih hstore ht

theorem mem_turns {key : Token.Key} {inputs : List Input} {t : Turn} {store : Store} {queue : Queue}
    (ht : t ∈ (inMemory key store queue).turns inputs) :
    ∃ store' queue', t.before = inMemory key store' queue' := by
  obtain ⟨store', queue', hbefore, -⟩ :=
    mem_turns_of_preserved (P := fun _ => True) (fun _ _ _ _ => trivial) trivial ht
  exact ⟨store', queue', hbefore⟩

end Server

/-! ### One turn -/

namespace Turn

theorem answer_eq (t : Turn) :
    t.answer = (t.before.service.handle t.moment t.authorization t.call).answer := rfl

theorem after_eq (t : Turn) : t.after =
    ⟨{ t.before.service with
        store := (t.before.service.handle t.moment t.authorization t.call).store },
      Server.tell t.before.queue
        (t.before.service.handle t.moment t.authorization t.call).event⟩ := rfl

section
variable {key : Token.Key} {store : Store} {queue : Queue} {t : Turn}

theorem of_outcome (hbefore : t.before = Server.inMemory key store queue) {o : Outcome}
    (ho : (Service.inMemory key store).handle t.moment t.authorization t.call = o) :
    t.answer = o.answer ∧ t.after = Server.inMemory key o.store (Server.tell queue o.event) ∧
      t.handed = o.event := by
  obtain ⟨before, m, authorization, c⟩ := t
  cases hbefore
  subst ho
  exact ⟨rfl, rfl, rfl⟩

/-- A turn without an event leaves the server as it was. -/
theorem of_unchanged (hbefore : t.before = Server.inMemory key store queue)
    {answer : Except Status Reply}
    (ho : (Service.inMemory key store).handle t.moment t.authorization t.call =
      ⟨answer, store, none⟩) :
    t.answer = answer ∧ t.after = t.before ∧ t.handed = none := by
  obtain ⟨hanswer, hafter, hhanded⟩ := of_outcome hbefore ho
  exact ⟨hanswer, hafter.trans hbefore.symm, hhanded⟩

/-- A turn whose call makes a change answers it, keeps it and tells it. -/
theorem of_makes (hbefore : t.before = Server.inMemory key store queue) {ch : Change}
    {store' : Store} (h : Makes key store t.moment t.authorization t.call ch store') :
    t.answer = .ok ch.reply ∧
      t.after = Server.inMemory key store' (Server.tell queue (some ch.event)) ∧
      t.handed = some ch.event :=
  of_outcome hbefore (Service.handle_of_commits (Service.commits_inMemory_iff.mpr h))

/-- A turn makes a change, or is refused one, or asks for none. -/
theorem cases (hbefore : t.before = Server.inMemory key store queue) :
    (t.call.Changes ∧ ∃ ch, Makes key store t.moment t.authorization t.call ch
        t.after.service.store ∧ t.answer = .ok ch.reply ∧ t.handed = some ch.event) ∨
    (t.call.Changes ∧ (∀ ch store', ¬ Makes key store t.moment t.authorization t.call ch store') ∧
      (∃ status, t.answer = .error status) ∧ t.after = t.before ∧ t.handed = none) ∨
    (¬ t.call.Changes ∧ t.after = t.before ∧ t.handed = none) := by
  by_cases hc : t.call.Changes
  · rcases Service.handle_cases key store t.moment t.authorization hc with
      ⟨ch, store', hmakes, houtcome⟩ | ⟨hnone, status, houtcome⟩
    · obtain ⟨hanswer, hafter, hhanded⟩ := of_outcome hbefore houtcome
      refine Or.inl ⟨hc, ch, ?_, hanswer, hhanded⟩
      rw [hafter]
      exact hmakes
    · obtain ⟨hanswer, hsame⟩ := of_unchanged hbefore houtcome
      exact Or.inr (Or.inl ⟨hc, hnone, ⟨status, hanswer⟩, hsame⟩)
  · obtain ⟨hstore, hevent⟩ := Service.handle_of_not_changes (Service.inMemory key store) t.moment
      t.authorization hc
    obtain ⟨-, hafter, hhanded⟩ := of_outcome hbefore rfl
    rw [hevent] at hafter hhanded
    rw [hstore] at hafter
    exact Or.inr (Or.inr ⟨hc, hafter.trans hbefore.symm, hhanded⟩)

end

end Turn

/-! ### Nothing is changed but by a known user -/

/-- **Only known users change the register.** In every run of a server in memory,

* a turn that leaves the server other than it was, or hands over an event, is a `Create`, `Update` or
  `Delete` by the bearer of a token of the server's key whose claims are those of a user, inside their
  window, whom the store knows at that moment by name or by number;
* every other `Create`, `Update` and `Delete`, whatever its message, is answered `unauthenticated`,
  leaves the server as it was and hands over nothing. -/
theorem only_known_users_change {key : Token.Key} {store : Store} {queue : Queue}
    {inputs : List Input} {t : Turn}
    (ht : t ∈ (Server.inMemory key store queue).turns inputs) :
    (t.after ≠ t.before ∨ t.handed ≠ none → t.call.Changes ∧
      MayChange key t.before.service.store t.moment.now t.authorization) ∧
    (t.call.Changes → ¬ MayChange key t.before.service.store t.moment.now t.authorization →
      (∃ message, t.answer = .error (.unauthenticated message)) ∧ t.after = t.before ∧
        t.handed = none) := by
  obtain ⟨store', queue', hbefore⟩ := Server.mem_turns ht
  have hstore : t.before.service.store = store' := congrArg (·.service.store) hbefore
  rw [hstore]
  have hidle : t.after = t.before ∧ t.handed = none →
      ¬ (t.after ≠ t.before ∨ t.handed ≠ none) := by
    rintro ⟨hafter, hhanded⟩ (hchanged | htold)
    · exact hchanged hafter
    · exact htold hhanded
  constructor
  · intro hdone
    rcases Turn.cases hbefore with ⟨hc, ch, hmakes, -⟩ | ⟨-, -, -, hsame⟩ | ⟨-, hsame⟩
    · exact ⟨hc, hmakes.permitted⟩
    · exact absurd hdone (hidle hsame)
    · exact absurd hdone (hidle hsame)
  · intro hc hnot
    obtain ⟨message, houtcome⟩ := Service.handle_of_not_mayChange hnot hc
    obtain ⟨hanswer, hsame⟩ := Turn.of_unchanged hbefore houtcome
    exact ⟨⟨message, hanswer⟩, hsame⟩

/-! A sample run at noon of a day: in front of a store with one user, somebody without a token
deletes a company, and the user creates one. -/

def noon : Instant := ⟨⟨2026, 1, 1, by decide⟩, 43200, 0, by decide⟩

def ada : User where
  id := 1
  username := "ada"
  passwordHash := ""
  isAdmin := false
  sessionHours := 1
  createdAt := noon
  updatedAt := noon

def sampleKey : Token.Key := ⟨[115], by decide⟩

/-- A token that the key signs for the user at noon. -/
def adaToken : String :=
  "eyJ0eXAiOiJKV1QiLCJhbGciOiJIUzI1NiJ9." ++
    "eyJzdWIiOiJ1c2VyIiwiaWQiOjEsInVzZXJuYW1lIjoiYWRhIiwiaXNzIjoiYXMiLCJhdWQiOiJhcyIs" ++
    "Im5iZiI6MTc2NzI2ODgwMCwiZXhwIjoxNzY3MjcyNDAwfQ." ++
    "wWpm-es_DncTBtTVJhpOlsgx_qO6kqnEawgVCbWS2cI"

def sampleServer : Server :=
  .inMemory sampleKey { users := [ada] } (Queue.start (.fresh ⟨"", []⟩ {} 0) {})

def sampleMoment : Moment := ⟨noon, noon, ⟨List.replicate 16 7, by decide⟩⟩

def nobodysTurn : Turn := ⟨sampleServer, sampleMoment, none, .delete "no identifier"⟩

def adasTurn : Turn where
  before := nobodysTurn.after
  moment := sampleMoment
  authorization := some (Bytes.utf8 ("Bearer " ++ adaToken))
  call := .create (some { name := "Acme", employees := 1, kind := 1 })

def sampleInputs : List Input :=
  [nobodysTurn, adasTurn].map fun t => .call t.moment t.authorization t.call

theorem sampleServer_turns : sampleServer.turns sampleInputs = [nobodysTurn, adasTurn] := rfl

/-- What the token tells of the user: a session of an hour, from noon on. -/
def adaClaims : Claims := ⟨.user, 1, "ada", "as", "as", 1767268800, 1767272400⟩

theorem adaToken_eq : adaToken = Token.encode sampleKey adaClaims := by decide +kernel

theorem ada_mayChange {store : Store} (hknown : ada ∈ store.users) {now : Instant}
    (hwindow : adaClaims.InWindow now.unixSeconds) :
    MayChange sampleKey store now (some (Bytes.utf8 ("Bearer " ++ adaToken))) := by
  have hchecked : Token.checkClaims now.unixSeconds adaClaims = .ok () := by
    obtain ⟨hearly, hlate⟩ := hwindow
    exact Token.checkClaims_eq_ok_iff.mpr ⟨by decide, ⟨hearly, Int.le_of_lt hlate⟩, rfl, rfl⟩
  rw [adaToken_eq]
  exact mayChange_of_encode rfl hchecked hwindow ⟨ada, hknown, Or.inl rfl⟩

/-- The company that the user creates. -/
def acme : Company :=
  Record.described { name := "Acme", employees := 1, kind := 1 } sampleMoment.fresh .corporation
    noon

theorem adasTurn_before :
    adasTurn.before = .inMemory sampleKey { users := [ada] } sampleServer.queue := rfl

theorem adasTurn_makes : Makes sampleKey { users := [ada] } adasTurn.moment adasTurn.authorization
    adasTurn.call (.create acme) { companies := [acme], users := [ada] } where
  permitted := ada_mayChange List.mem_cons_self ⟨by decide, by decide⟩
  asked := .create (Or.inl ⟨rfl, rfl⟩) rfl rfl
  taken := rfl

theorem adasTurn_tells : adasTurn.handed.map (fun e => (e.entity, e.kind)) =
    some ("07070707-0707-0707-0707-070707070707", .created) := by
  obtain ⟨-, -, hhanded⟩ := Turn.of_makes adasTurn_before adasTurn_makes
  rw [hhanded]
  decide

theorem adasTurn_answered :
    adasTurn.answer = .ok (.created "07070707-0707-0707-0707-070707070707") := by
  obtain ⟨hanswer, -⟩ := Turn.of_makes adasTurn_before adasTurn_makes
  rw [hanswer]
  decide

/-- Nobody is refused although the identifier is none, and the user changes the register. -/
theorem ada_changes_nobody_does_not :
    ((∃ message, nobodysTurn.answer = .error (.unauthenticated message)) ∧
      nobodysTurn.after = nobodysTurn.before ∧ nobodysTurn.handed = none) ∧
    adasTurn.handed ≠ none ∧
      MayChange sampleKey adasTurn.before.service.store noon adasTurn.authorization := by
  have hnobody : nobodysTurn ∈ sampleServer.turns sampleInputs := by
    rw [sampleServer_turns]
    exact List.mem_cons_self
  have hada : adasTurn ∈ sampleServer.turns sampleInputs := by
    rw [sampleServer_turns]
    exact List.mem_cons_of_mem _ List.mem_cons_self
  have htold : adasTurn.handed ≠ none := by
    intro hnone
    have htells := adasTurn_tells
    rw [hnone] at htells
    cases htells
  refine ⟨(only_known_users_change hnobody).2 trivial ?_, htold,
    ((only_known_users_change hada).1 (Or.inr htold)).2⟩
  rintro ⟨value, text, token, claims, hvalue, -⟩
  cases hvalue

/-! ### The events are those of the changes -/

/-- An event announces the company that a call has created, updated or deleted, by the text of its
identifier. -/
def Announces (t : Turn) (e : Event) : Prop :=
  match t.call with
  | .create company => ∃ r id, company = some r ∧ NewId t.moment.fresh r.id id ∧
      t.answer = .ok (.created id.text) ∧ e.entity = id.text ∧ e.kind = .created
  | .update company => ∃ r id, company = some r ∧ Company.Id.parse r.id = .ok id ∧
      t.answer = .ok .updated ∧ e.entity = id.text ∧ e.kind = .updated
  | .delete text => ∃ id, Company.Id.parse text = .ok id ∧
      t.answer = .ok .deleted ∧ e.entity = id.text ∧ e.kind = .deleted ∧ e.payload = []
  | _ => False

/-- Two lists drawn from one agree in order if each of its items is drawn for both or for neither. -/
theorem forall₂_filter_filterMap {α β : Type} {R : α → β → Prop} {p : α → Bool} {f : α → Option β}
    {l : List α} (h : ∀ a ∈ l, (p a = false ∧ f a = none) ∨ (p a = true ∧ ∃ b, f a = some b ∧ R a b)) :
    List.Forall₂ R (l.filter p) (l.filterMap f) := by
  induction l with
  | nil => exact .nil
  | cons a l ih =>
    have htail := ih fun b hb => h b (List.mem_cons_of_mem a hb)
    rcases h a List.mem_cons_self with ⟨hp, hf⟩ | ⟨hp, b, hf, hR⟩
    · rwa [List.filter_cons_of_neg (by simp [hp]), List.filterMap_cons_none hf]
    · rw [List.filter_cons_of_pos hp, List.filterMap_cons_some hf]
      exact .cons hR htail

theorem announces_of_asks {t : Turn} {ch : Change} (hasks : Asks t.moment t.call ch)
    (hanswer : t.answer = .ok ch.reply) : Announces t ch.event := by
  obtain ⟨before, m, authorization, c⟩ := t
  cases hasks with
  | create hid => exact ⟨_, _, rfl, hid, hanswer, rfl, rfl⟩
  | update hid => exact ⟨_, _, rfl, hid, hanswer, rfl, rfl⟩
  | delete hid => exact ⟨_, hid, hanswer, rfl, rfl, rfl⟩

namespace Turn

section
variable {key : Token.Key} {store : Store} {queue : Queue} {t : Turn}

/-- A turn either makes a change and announces it, or does neither. -/
theorem drawn (hbefore : t.before = Server.inMemory key store queue) :
    (decide (t.call.Changes ∧ t.answer.isOk) = false ∧ t.handed = none) ∨
    (decide (t.call.Changes ∧ t.answer.isOk) = true ∧ ∃ e, t.handed = some e ∧ Announces t e) := by
  rcases cases hbefore with
    ⟨hc, ch, hmakes, hanswer, hhanded⟩ | ⟨-, -, ⟨status, hanswer⟩, -, hhanded⟩ | ⟨hc, -, hhanded⟩
  · refine Or.inr ⟨?_, ch.event, hhanded, announces_of_asks hmakes.asked hanswer⟩
    simp [hc, hanswer, Except.isOk, Except.toBool]
  · exact Or.inl ⟨by simp [hanswer, Except.isOk, Except.toBool], hhanded⟩
  · exact Or.inl ⟨by simp [hc], hhanded⟩

theorem isOk_iff_makes (hbefore : t.before = Server.inMemory key store queue)
    (hchanges : t.call.Changes) :
    t.answer.isOk ↔
      ∃ ch, Makes key store t.moment t.authorization t.call ch t.after.service.store := by
  rcases cases hbefore with
    ⟨-, ch, hmakes, hanswer, -⟩ | ⟨-, hnone, ⟨status, hanswer⟩, -⟩ | ⟨hc, -⟩
  · rw [hanswer]
    exact ⟨fun _ => ⟨ch, hmakes⟩, fun _ => rfl⟩
  · rw [hanswer]
    constructor
    · intro hok
      exact absurd hok (by simp [Except.isOk, Except.toBool])
    · rintro ⟨ch, hmakes⟩
      exact absurd hmakes (hnone ch _)
  · exact absurd hchanges hc

theorem of_error (hbefore : t.before = Server.inMemory key store queue) {status : Status}
    (herror : t.answer = .error status) : t.after = t.before ∧ t.handed = none := by
  rcases cases hbefore with ⟨-, ch, -, hanswer, -⟩ | ⟨-, -, -, hsame⟩ | ⟨-, hsame⟩
  · cases hanswer.symm.trans herror
  · exact hsame
  · exact hsame

end

end Turn

/-- **The events are those of the changes.** In every run of a server in memory,

* the events handed to the queue announce, one for one and in order, the `Create`, `Update` and `Delete`
  calls answered well, and no event comes from another call;
* the queue is offered each event that is handed over, and otherwise left alone;
* a `Create`, `Update` or `Delete` is answered well exactly if the store has made the change that it
  asks for;
* a call answered with an error leaves the server as it was and hands over nothing. -/
theorem changes_are_announced (key : Token.Key) (store : Store) (queue : Queue)
    (inputs : List Input) :
    List.Forall₂ Announces
      (((Server.inMemory key store queue).turns inputs).filter fun t =>
        t.call.Changes ∧ t.answer.isOk)
      (((Server.inMemory key store queue).turns inputs).filterMap Turn.handed) ∧
    ∀ t ∈ (Server.inMemory key store queue).turns inputs,
      (t.handed = none → t.after.queue = t.before.queue) ∧
      (∀ e, t.handed = some e → t.after.queue = (t.before.queue.notify e).2) ∧
      (t.call.Changes → (t.answer.isOk ↔ ∃ ch, Makes key t.before.service.store t.moment
        t.authorization t.call ch t.after.service.store)) ∧
      (∀ status, t.answer = .error status → t.after = t.before ∧ t.handed = none) := by
  constructor
  · refine forall₂_filter_filterMap ?_
    intro t ht
    obtain ⟨store', queue', hbefore⟩ := Server.mem_turns ht
    exact Turn.drawn hbefore
  · intro t ht
    obtain ⟨store', queue', hbefore⟩ := Server.mem_turns ht
    have hstore : t.before.service.store = store' := congrArg (·.service.store) hbefore
    rw [hstore]
    refine ⟨Server.tell_of_none, fun e => Server.tell_of_some, Turn.isOk_iff_makes hbefore, ?_⟩
    intro status herror
    exact Turn.of_error hbefore herror

/-- The run of nobody and the user tells one event, of the company that the user has created; it is offered to
the queue. -/
theorem adas_change_is_announced :
    (∃ e, (sampleServer.turns sampleInputs).filterMap Turn.handed = [e] ∧ e.kind = .created ∧
      adasTurn.after.queue = (adasTurn.before.queue.notify e).2) ∧
    List.Forall₂ Announces
      ((sampleServer.turns sampleInputs).filter fun t => t.call.Changes ∧ t.answer.isOk)
      ((sampleServer.turns sampleInputs).filterMap Turn.handed) ∧
    ∃ ch, Makes sampleKey adasTurn.before.service.store sampleMoment adasTurn.authorization
      adasTurn.call ch adasTurn.after.service.store := by
  obtain ⟨hannounced, hturns⟩ := changes_are_announced sampleKey { users := [ada] }
    (Queue.start (.fresh ⟨"", []⟩ {} 0) {}) sampleInputs
  obtain ⟨-, hqueue, hmade, herror⟩ := hturns adasTurn (by
    change adasTurn ∈ sampleServer.turns sampleInputs
    rw [sampleServer_turns]
    exact List.mem_cons_of_mem _ List.mem_cons_self)
  obtain ⟨e, htold, hkind⟩ := Option.map_eq_some_iff.mp adasTurn_tells
  refine ⟨⟨e, ?_, congrArg Prod.snd hkind, hqueue e htold⟩, hannounced, (hmade trivial).mp ?_⟩
  · have hnobody : nobodysTurn.handed = none := rfl
    rw [sampleServer_turns, List.filterMap_cons_none hnobody, List.filterMap_cons_some htold]
    rfl
  · cases hanswer : adasTurn.answer with
    | ok reply => rfl
    | error status => cases htold.symm.trans (herror status hanswer).2

end CompanyRegistry.Rpc
