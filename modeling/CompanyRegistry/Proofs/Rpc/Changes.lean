import CompanyRegistry.Proofs.Outcome
import CompanyRegistry.Proofs.Rpc.Permission
import CompanyRegistry.Proofs.Store.Commands
import CompanyRegistry.Rpc.Server

/-!
# What the calls change

A `Change` is what the store can be asked to do to the register, with the answer and the event that go
with it; `Asks` says which change the message of a call describes. A call that changes the register
then is one line (`handle_cases`): if its bearer may change the register and the store takes the change
that it asks for, the change is answered, stored and told, and otherwise nothing happens but a status.
-/

namespace CompanyRegistry.Rpc

/-! ### Changes -/

/-- What the store can be asked to do to the register. -/
inductive Change
  | create (c : Company)
  | update (c : Company) (stored : Instant)
  | delete (id : Company.Id)

namespace Change

/-- The store after a change, or why it does not take it. -/
def apply (store : Store) : Change → Except Store.Failure Store
  | .create c => store.create c
  | .update c stored => store.update c stored
  | .delete id => store.delete id

/-- The answer to a change. -/
def reply : Change → Reply
  | .create c => .created c.id.text
  | .update .. => .updated
  | .delete _ => .deleted

/-- The event of a change. -/
def event : Change → Event
  | .create c => .ofCompany .created c
  | .update c _ => .ofCompany .updated c
  | .delete id => .ofDeletion id

/-- What the store is told for a change. -/
def command : Change → Store.Command
  | .create c => .create c
  | .update c stored => .update c stored
  | .delete id => .delete id

theorem apply_eq (ch : Change) (store : Store) : ch.apply store = ch.command.apply store := by
  cases ch <;> rfl

/-- The operation that a change has to be permitted. -/
def operation : Change → Operation
  | .create _ => .create
  | .update .. => .update
  | .delete _ => .delete

end Change

/-- The company that a record describes. -/
def Record.described (r : Record) (id : Company.Id) (kind : Company.Kind) (now : Instant) :
    Company where
  id := id
  name := r.name
  description := r.description
  employees := r.employees
  registered := r.registered
  kind := kind
  createdAt := now
  updatedAt := now

/-- The identifier under which a company is created: the one that the text spells, or a fresh one for a
blank text. -/
def NewId (fresh : Company.Id) (text : String) (id : Company.Id) : Prop :=
  (Text.allBlank text = true ∧ id = fresh) ∨
    (Text.allBlank text = false ∧ Company.Id.parse text = .ok id)

/-- The message of a call describes a change that keeps the limits of the register. -/
inductive Asks (m : Moment) : Call → Change → Prop
  | create {r : Record} {id : Company.Id} {kind : Company.Kind} (hid : NewId m.fresh r.id id)
      (hkind : kindOfNumber r.kind = .ok (some kind))
      (hlimits : (r.described id kind m.now).check = .ok ()) :
      Asks m (.create (some r)) (.create (r.described id kind m.now))
  | update {r : Record} {id : Company.Id} {kind : Company.Kind}
      (hid : Company.Id.parse r.id = .ok id) (hkind : kindOfNumber r.kind = .ok (some kind))
      (hlimits : (r.described id kind m.now).check = .ok ()) :
      Asks m (.update (some r)) (.update (r.described id kind m.now) m.stored)
  | delete {text : String} {id : Company.Id} (hid : Company.Id.parse text = .ok id) :
      Asks m (.delete text) (.delete id)

/-- The calls that change the register. -/
def Call.Changes : Call → Prop
  | .create _ | .update _ | .delete _ => True
  | _ => False

instance : DecidablePred Call.Changes := fun c =>
  match c with
  | .create _ | .update _ | .delete _ => .isTrue trivial
  | .login .. | .get _ | .list _ => .isFalse id

/-- A change is made of a call: its bearer may make it, its message asks for it, and the store takes
it. -/
structure Makes (key : Token.Key) (store : Store) (m : Moment) (authorization : Option Bytes)
    (c : Call) (ch : Change) (store' : Store) : Prop where
  permitted : MayChange key store m.now authorization
  asked : Asks m c ch
  taken : ch.apply store = .ok store'

/-- A service makes a change of a call: it lets the call through, the message asks for the change, and
the storage is in order and takes it. -/
structure Service.Commits (s : Service) (m : Moment) (authorization : Option Bytes) (c : Call)
    (ch : Change) (store' : Store) : Prop where
  permitted : s.authorize m.now authorization ch.operation = .ok ()
  asked : Asks m c ch
  inOrder : s.outage.companies = none
  taken : ch.apply s.store = .ok store'

/-! ### Reading the messages -/

namespace Service

theorem fromStorage_eq_ok_iff {α : Type} {reason : Option String} {r : Except Store.Failure α}
    {a : α} : fromStorage reason r = .ok a ↔ reason = none ∧ r = .ok a := by
  cases reason with
  | none => simp [fromStorage, mapError_eq_ok_iff]
  | some text => simp [fromStorage]

theorem readId_eq_ok_iff {text : String} {id : Company.Id} :
    readId text = .ok id ↔ Company.Id.parse text = .ok id :=
  mapError_eq_ok_iff

theorem readNewId_eq_ok_iff {fresh id : Company.Id} {text : String} :
    readNewId fresh text = .ok id ↔ NewId fresh text id := by
  unfold readNewId NewId
  cases Text.allBlank text with
  | true => simp [eq_comm]
  | false => simp [readId_eq_ok_iff]

theorem requireRecord_eq_ok_iff {company : Option Record} {r : Record} :
    requireRecord company = .ok r ↔ company = some r := by
  cases company <;> simp [requireRecord]

theorem readCompany_eq_ok_iff {r : Record} {id : Company.Id} {now : Instant} {c : Company} :
    readCompany r id now = .ok c ↔ ∃ kind, kindOfNumber r.kind = .ok (some kind) ∧
      (r.described id kind now).check = .ok () ∧ c = r.described id kind now := by
  unfold readCompany
  rw [bind_eq_ok_iff]
  constructor
  · rintro ⟨kind?, hkind, hcompany⟩
    have hkind' : kindOfNumber r.kind = .ok kind? := mapError_eq_ok_iff.mp hkind
    cases kind? with
    | none => cases hcompany
    | some kind =>
      have hchecked := mapError_eq_ok_iff.mp hcompany
      refine ⟨kind, hkind', ?_⟩
      change (r.described id kind now).checked = .ok c at hchecked
      unfold Company.checked at hchecked
      cases hcheck : (r.described id kind now).check with
      | error e =>
        rw [hcheck] at hchecked
        cases hchecked
      | ok _ =>
        rw [hcheck] at hchecked
        exact ⟨rfl, (Except.ok.inj hchecked).symm⟩
  · rintro ⟨kind, hkind, hcheck, rfl⟩
    refine ⟨some kind, mapError_eq_ok_iff.mpr hkind, mapError_eq_ok_iff.mpr ?_⟩
    change (r.described id kind now).checked = _
    unfold Company.checked
    rw [hcheck]
    rfl

/-! ### The calls that change the register -/

section
variable {s : Service} {m : Moment} {authorization : Option Bytes} {reply : Reply} {store' : Store}
  {event : Event}

theorem create_eq_ok_iff {company : Option Record} :
    s.create m authorization company = .ok (reply, store', event) ↔
      ∃ ch, s.Commits m authorization (.create company) ch store' ∧
        reply = ch.reply ∧ event = ch.event := by
  simp only [create, bind_eq_ok_iff, requireRecord_eq_ok_iff, readNewId_eq_ok_iff,
    readCompany_eq_ok_iff, fromStorage_eq_ok_iff]
  constructor
  · rintro ⟨⟨⟩, hpermitted, r, rfl, id, hid, c, ⟨kind, hkind, hlimits, rfl⟩, _, ⟨horder, hstore⟩,
      hresult⟩
    cases hresult
    exact ⟨.create _, ⟨hpermitted, .create hid hkind hlimits, horder, hstore⟩, rfl, rfl⟩
  · rintro ⟨ch, ⟨hpermitted, hasks, horder, htaken⟩, rfl, rfl⟩
    cases hasks with
    | create hid hkind hlimits =>
      exact ⟨(), hpermitted, _, rfl, _, hid, _, ⟨_, hkind, hlimits, rfl⟩, store',
        ⟨horder, htaken⟩, rfl⟩

theorem update_eq_ok_iff {company : Option Record} :
    s.update m authorization company = .ok (reply, store', event) ↔
      ∃ ch, s.Commits m authorization (.update company) ch store' ∧
        reply = ch.reply ∧ event = ch.event := by
  simp only [update, bind_eq_ok_iff, requireRecord_eq_ok_iff, readId_eq_ok_iff,
    readCompany_eq_ok_iff, fromStorage_eq_ok_iff]
  constructor
  · rintro ⟨⟨⟩, hpermitted, r, rfl, id, hid, c, ⟨kind, hkind, hlimits, rfl⟩, _, ⟨horder, hstore⟩,
      hresult⟩
    cases hresult
    exact ⟨.update _ _, ⟨hpermitted, .update hid hkind hlimits, horder, hstore⟩, rfl, rfl⟩
  · rintro ⟨ch, ⟨hpermitted, hasks, horder, htaken⟩, rfl, rfl⟩
    cases hasks with
    | update hid hkind hlimits =>
      exact ⟨(), hpermitted, _, rfl, _, hid, _, ⟨_, hkind, hlimits, rfl⟩, store',
        ⟨horder, htaken⟩, rfl⟩

theorem delete_eq_ok_iff {text : String} :
    s.delete m authorization text = .ok (reply, store', event) ↔
      ∃ ch, s.Commits m authorization (.delete text) ch store' ∧
        reply = ch.reply ∧ event = ch.event := by
  simp only [delete, bind_eq_ok_iff, readId_eq_ok_iff, fromStorage_eq_ok_iff]
  constructor
  · rintro ⟨⟨⟩, hpermitted, id, hid, _, ⟨horder, hstore⟩, hresult⟩
    cases hresult
    exact ⟨.delete _, ⟨hpermitted, .delete hid, horder, hstore⟩, rfl, rfl⟩
  · rintro ⟨ch, ⟨hpermitted, hasks, horder, htaken⟩, rfl, rfl⟩
    cases hasks with
    | delete hid => exact ⟨(), hpermitted, _, hid, store', ⟨horder, htaken⟩, rfl⟩

theorem committed_cases {made : Change → Store → Prop}
    {result : Except Status (Reply × Store × Event)}
    (h : ∀ {reply store' event}, result = .ok (reply, store', event) ↔
      ∃ ch, made ch store' ∧ reply = ch.reply ∧ event = ch.event) (s : Service) :
    (∃ ch store', made ch store' ∧
      s.committed result = ⟨.ok ch.reply, store', some ch.event⟩) ∨
    ((∀ ch store', ¬ made ch store') ∧
      ∃ status, s.committed result = ⟨.error status, s.store, none⟩) := by
  cases result with
  | error status =>
    refine Or.inr ⟨?_, status, rfl⟩
    intro ch store' hmade
    cases h.mpr ⟨ch, hmade, rfl, rfl⟩
  | ok made' =>
    obtain ⟨reply, store', event⟩ := made'
    obtain ⟨ch, hmade, rfl, rfl⟩ := h.mp rfl
    exact Or.inl ⟨ch, store', hmade, rfl⟩

/-- A call that changes the register either makes the change that it asks for, or is answered with a
status and leaves everything as it was. -/
theorem handle_commits (s : Service) (m : Moment) (authorization : Option Bytes) {c : Call}
    (hc : c.Changes) :
    (∃ ch store', s.Commits m authorization c ch store' ∧
      s.handle m authorization c = ⟨.ok ch.reply, store', some ch.event⟩) ∨
    ((∀ ch store', ¬ s.Commits m authorization c ch store') ∧
      ∃ status, s.handle m authorization c = ⟨.error status, s.store, none⟩) := by
  cases c with
  | create company => exact committed_cases create_eq_ok_iff s
  | update company => exact committed_cases update_eq_ok_iff s
  | delete text => exact committed_cases delete_eq_ok_iff s
  | login | get | list => exact hc.elim

theorem handle_of_commits {c : Call} {ch : Change} (h : s.Commits m authorization c ch store') :
    s.handle m authorization c = ⟨.ok ch.reply, store', some ch.event⟩ := by
  cases h.asked with
  | create =>
    have hmade := create_eq_ok_iff.mpr ⟨_, h, rfl, rfl⟩
    simp only [handle, hmade, committed]
  | update =>
    have hmade := update_eq_ok_iff.mpr ⟨_, h, rfl, rfl⟩
    simp only [handle, hmade, committed]
  | delete =>
    have hmade := delete_eq_ok_iff.mpr ⟨_, h, rfl, rfl⟩
    simp only [handle, hmade, committed]

/-- The other calls change nothing and tell nothing. -/
theorem handle_of_not_changes (s : Service) (m : Moment) (authorization : Option Bytes) {c : Call}
    (hc : ¬ c.Changes) :
    (s.handle m authorization c).store = s.store ∧
      (s.handle m authorization c).event = none := by
  cases c with
  | create | update | delete => exact absurd trivial hc
  | login | get | list => exact ⟨rfl, rfl⟩

/-- Whatever the call, the store is as it was or has made the change that is answered. -/
theorem handle_store (s : Service) (m : Moment) (authorization : Option Bytes) (c : Call) :
    (∃ ch, s.Commits m authorization c ch (s.handle m authorization c).store ∧
      (s.handle m authorization c).answer = .ok ch.reply) ∨
    ((s.handle m authorization c).store = s.store ∧
      (c.Changes → ∃ status, (s.handle m authorization c).answer = .error status)) := by
  by_cases hc : c.Changes
  · rcases s.handle_commits m authorization hc with
      ⟨ch, store', hcommits, houtcome⟩ | ⟨-, status, houtcome⟩
    · rw [houtcome]
      exact Or.inl ⟨ch, hcommits, rfl⟩
    · rw [houtcome]
      exact Or.inr ⟨rfl, fun _ => ⟨status, rfl⟩⟩
  · obtain ⟨hstore, -⟩ := s.handle_of_not_changes m authorization hc
    exact Or.inr ⟨hstore, fun hchanges => absurd hchanges hc⟩

/-- A change that is answered well is made. -/
theorem commits_of_ok {s : Service} {m : Moment} {authorization : Option Bytes} {c : Call}
    {reply : Reply} (h : (s.handle m authorization c).answer = .ok reply) (hc : c.Changes) :
    ∃ ch, s.Commits m authorization c ch (s.handle m authorization c).store ∧ reply = ch.reply := by
  rcases s.handle_store m authorization c with ⟨ch, hcommits, hreply⟩ | ⟨-, hfailed⟩
  · exact ⟨ch, hcommits, Except.ok.inj (h.symm.trans hreply)⟩
  · obtain ⟨status, herror⟩ := hfailed hc
    cases h.symm.trans herror

end

/-! ### With everything in memory -/

section
variable {key : Token.Key} {store : Store} {m : Moment} {authorization : Option Bytes}

theorem authorize_eq_ok_iff {op : Operation} {u : Unit} :
    (inMemory key store).authorize m.now authorization op = .ok u ↔
      MayChange key store m.now authorization := by
  rcases authorize_cases key store m.now authorization op with ⟨h, hok⟩ | ⟨h, message, herror⟩
  · simp [h, hok]
  · simp [h, herror]

theorem commits_inMemory_iff {c : Call} {ch : Change} {store' : Store} :
    (inMemory key store).Commits m authorization c ch store' ↔
      Makes key store m authorization c ch store' := by
  constructor
  · rintro ⟨hpermitted, hasked, -, htaken⟩
    exact ⟨authorize_eq_ok_iff.mp hpermitted, hasked, htaken⟩
  · rintro ⟨hmay, hasked, htaken⟩
    exact ⟨authorize_eq_ok_iff.mpr hmay, hasked, rfl, htaken⟩

/-- With everything in memory, a change is made for whoever may change the register. -/
theorem handle_cases (key : Token.Key) (store : Store) (m : Moment)
    (authorization : Option Bytes) {c : Call} (hc : c.Changes) :
    (∃ ch store', Makes key store m authorization c ch store' ∧
      (inMemory key store).handle m authorization c = ⟨.ok ch.reply, store', some ch.event⟩) ∨
    ((∀ ch store', ¬ Makes key store m authorization c ch store') ∧
      ∃ status, (inMemory key store).handle m authorization c = ⟨.error status, store, none⟩) := by
  simp only [← commits_inMemory_iff]
  exact handle_commits (inMemory key store) m authorization hc

/-- Whoever may not change the register is answered `unauthenticated`, whatever the message. -/
theorem handle_of_not_mayChange (h : ¬ MayChange key store m.now authorization) {c : Call}
    (hc : c.Changes) :
    ∃ message, (inMemory key store).handle m authorization c =
      ⟨.error (.unauthenticated message), store, none⟩ := by
  -- the check comes before the message in each of the three, so no message makes a difference
  have herror : ∀ op, ∃ message, (inMemory key store).authorize m.now authorization op =
      .error (.unauthenticated message) := fun op => by
    rcases authorize_cases key store m.now authorization op with ⟨hmay, -⟩ | ⟨-, hmessage⟩
    · exact absurd hmay h
    · exact hmessage
  cases c with
  | create company =>
    obtain ⟨message, hmessage⟩ := herror .create
    exact ⟨message, by simp only [handle, create, hmessage, bind, Except.bind, committed]; rfl⟩
  | update company =>
    obtain ⟨message, hmessage⟩ := herror .update
    exact ⟨message, by simp only [handle, update, hmessage, bind, Except.bind, committed]; rfl⟩
  | delete text =>
    obtain ⟨message, hmessage⟩ := herror .delete
    exact ⟨message, by simp only [handle, delete, hmessage, bind, Except.bind, committed]; rfl⟩
  | login | get | list => exact hc.elim

end

end Service

theorem Server.call_of_not_changes (s : Server) (m : Moment) (authorization : Option Bytes)
    {c : Call} (hc : ¬ c.Changes) : (s.call m authorization c).2 = s := by
  obtain ⟨hstore, hevent⟩ := s.service.handle_of_not_changes m authorization hc
  simp only [call, hstore, hevent]
  rfl

end CompanyRegistry.Rpc
