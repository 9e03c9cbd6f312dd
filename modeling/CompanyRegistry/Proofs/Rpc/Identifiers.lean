import CompanyRegistry.Proofs.Company.Records
import CompanyRegistry.Proofs.Rpc.Failures
import CompanyRegistry.Proofs.Rpc.Turns
import CompanyRegistry.Proofs.Store.Lifetimes

/-!
# One company, one identifier

A call may name its company by any spelling of the identifier. The service reads the spelling before it does
anything with it, so the call is the call with the written form in its place (`Server.call_under`), and what
it answers and tells bears the written form, never the spelling (`spellings_are_one`).
-/

namespace CompanyRegistry

/-- An event is of the company with this identifier: it is filed under the written form, and the record that
it carries, unless it is of a deletion, has the same. -/
def Event.Bears (e : Event) (i : Company.Id) : Prop :=
  e.entity = i.text ∧
    ((e.kind = .deleted ∧ e.payload = []) ∨
      ∃ fields, Json.read e.payload = (.record (("id", .text i.text) :: fields), []))

namespace Rpc

/-- The text by which a call names its company. -/
def Call.name? : Call → Option String
  | .create (some r) | .update (some r) => some r.id
  | .get text | .delete text => some text
  | _ => none

/-- The call with another name for its company. -/
def Call.under (text : String) : Call → Call
  | .create (some r) => .create (some { r with id := text })
  | .update (some r) => .update (some { r with id := text })
  | .get _ => .get text
  | .delete _ => .delete text
  | c => c

/-- The identifiers that an answer shows. -/
def Reply.ids : Reply → List String
  | .created id => [id]
  | .found r => [r.id]
  | .listed rs => rs.map (·.id)
  | .token _ | .updated | .deleted => []

/-- The company that a change is about. -/
def Change.id : Change → Company.Id
  | .create c => c.id
  | .update c _ => c.id
  | .delete id => id

/-! ### Reading the name -/

section
variable {text : String} {i : Company.Id}

theorem not_allBlank_of_parse (h : Company.Id.parse text = .ok i) : Text.allBlank text = false := by
  obtain ⟨before, core, after, -, -, htext, hspells⟩ := Company.Id.parse_eq_ok_iff.mp h
  have hcore : core ≠ [] := by
    rintro rfl
    cases Company.Id.ofChars?_eq_some_iff.mpr hspells
  obtain ⟨c, hc⟩ := List.exists_mem_of_ne_nil core hcore
  refine Text.allBlank_eq_false_iff.mpr ⟨c, ?_, (hspells.plain c hc).2⟩
  rw [htext]
  simp [hc]

namespace Service

theorem readId_of_parse (h : Company.Id.parse text = .ok i) : readId text = .ok i :=
  readId_eq_ok_iff.mpr h

theorem readNewId_of_parse (fresh : Company.Id) (h : Company.Id.parse text = .ok i) :
    readNewId fresh text = .ok i :=
  readNewId_eq_ok_iff.mpr (Or.inr ⟨not_allBlank_of_parse h, h⟩)

/-- A call reads the name of its company and forgets it. -/
theorem handle_under (s : Service) (m : Moment) (authorization : Option Bytes) {c : Call}
    (hname : c.name? = some text) (h : Company.Id.parse text = .ok i) :
    s.handle m authorization (c.under i.text) = s.handle m authorization c := by
  have hread : readId i.text = readId text :=
    (readId_of_parse i.parse_text).trans (readId_of_parse h).symm
  have hnew : readNewId m.fresh i.text = readNewId m.fresh text :=
    (readNewId_of_parse m.fresh i.parse_text).trans (readNewId_of_parse m.fresh h).symm
  cases c with
  | login username password => cases hname
  | list q => cases hname
  | create company =>
    cases company with
    | none => cases hname
    | some r =>
      cases hname
      simp only [Call.under, handle, create, requireRecord, bind, Except.bind, hnew]
      rfl
  | update company =>
    cases company with
    | none => cases hname
    | some r =>
      cases hname
      simp only [Call.under, handle, update, requireRecord, bind, Except.bind, hread]
      rfl
  | get t =>
    cases hname
    simp only [Call.under, handle, get, hread]
  | delete t =>
    cases hname
    simp only [Call.under, handle, delete, hread]

end Service

theorem Server.call_under (s : Server) (m : Moment) (authorization : Option Bytes) {c : Call}
    (hname : c.name? = some text) (h : Company.Id.parse text = .ok i) :
    s.call m authorization (c.under i.text) = s.call m authorization c := by
  simp only [call, s.service.handle_under m authorization hname h]

/-- A change is about the company that its call names. -/
theorem Asks.id {m : Moment} {c : Call} {ch : Change} (hasks : Asks m c ch)
    (hname : c.name? = some text) (h : Company.Id.parse text = .ok i) : ch.id = i := by
  cases hasks with
  | create hid hkind hlimits =>
    cases hname
    rcases hid with ⟨hblank, -⟩ | ⟨-, hparse⟩
    · rw [not_allBlank_of_parse h] at hblank
      cases hblank
    · exact Except.ok.inj (hparse.symm.trans h)
  | update hid hkind hlimits =>
    cases hname
    exact Except.ok.inj (hid.symm.trans h)
  | delete hid =>
    cases hname
    exact Except.ok.inj (hid.symm.trans h)

end

/-! ### What is answered and told -/

theorem bears_ofCompany (kind : EventKind) (c : Company) : (Event.ofCompany kind c).Bears c.id := by
  have hread : Json.read (Event.ofCompany kind c).payload = (c.toJson, []) := by
    rw [Company.payload_ofCompany, Company.read_jsonText]
  exact ⟨rfl, Or.inr ⟨_, hread⟩⟩

theorem Change.bears_event (ch : Change) : ch.event.Bears ch.id := by
  cases ch with
  | create c => exact bears_ofCompany .created c
  | update c stored => exact bears_ofCompany .updated c
  | delete id => exact ⟨rfl, Or.inl ⟨rfl, rfl⟩⟩

theorem Change.eq_of_mem_ids {ch : Change} {shown : String} (h : shown ∈ ch.reply.ids) :
    shown = ch.id.text := by
  cases ch with
  | create c => exact List.mem_singleton.mp h
  | update c stored => cases h
  | delete id => cases h

namespace Service

variable {s : Service} {m : Moment} {authorization : Option Bytes} {c : Call} {reply : Reply}
  {shown text : String}

/-- The event of a call is that of the change it asks for. -/
theorem asks_of_event {e : Event} (h : (s.handle m authorization c).event = some e) :
    ∃ ch, Asks m c ch ∧ e = ch.event := by
  by_cases hc : c.Changes
  · rcases s.handle_commits m authorization hc with
      ⟨ch, store', hcommits, houtcome⟩ | ⟨-, status, houtcome⟩
    · rw [houtcome] at h
      cases h
      exact ⟨ch, hcommits.asked, rfl⟩
    · rw [houtcome] at h
      cases h
  · rw [(s.handle_of_not_changes m authorization hc).2] at h
    cases h

theorem get_eq_ok_iff : s.get text = .ok reply ↔ ∃ i found, Company.Id.parse text = .ok i ∧
    s.outage.companies = none ∧ s.store.find? i = some found ∧ reply = .found (.ofCompany found) := by
  simp only [get, bind_eq_ok_iff, readId_eq_ok_iff, fromStorage_eq_ok_iff, Store.get_eq_ok_iff]
  constructor
  · rintro ⟨i, hparse, found, ⟨horder, hfind⟩, hreply⟩
    exact ⟨i, found, hparse, horder, hfind, (Except.ok.inj hreply).symm⟩
  · rintro ⟨i, found, hparse, horder, hfind, rfl⟩
    exact ⟨i, hparse, found, ⟨horder, hfind⟩, rfl⟩

theorem list_eq_ok {q : Query} (h : s.list q = .ok reply) :
    ∃ cs : List Company, reply = .listed (cs.map .ofCompany) := by
  simp only [list, bind_eq_ok_iff] at h
  obtain ⟨f, -, cs, -, hreply⟩ := h
  exact ⟨cs, (Except.ok.inj hreply).symm⟩

theorem login_eq_ok {username password : String} {now : Instant}
    (h : s.login now username password = .ok reply) : ∃ jwt, reply = .token jwt := by
  rcases s.login_cases now username password with
    ⟨text, -, hlogin⟩ | hlogin | ⟨u, -, -, hlogin⟩ | ⟨u, -, -, hlogin⟩ | ⟨jwt, hlogin⟩
  · cases hlogin.symm.trans h
  · cases hlogin.symm.trans h
  · cases hlogin.symm.trans h
  · cases hlogin.symm.trans h
  · exact ⟨jwt, (Except.ok.inj (hlogin.symm.trans h)).symm⟩

/-- An answer shows written forms only: of the company that the call names, where it names one. -/
theorem shows_written (h : (s.handle m authorization c).answer = .ok reply) (hshown : shown ∈ reply.ids) :
    ∃ i : Company.Id, shown = i.text ∧
      ∀ text j, c.name? = some text → Company.Id.parse text = .ok j → i = j := by
  by_cases hc : c.Changes
  · obtain ⟨ch, hcommits, rfl⟩ := commits_of_ok h hc
    exact ⟨ch.id, ch.eq_of_mem_ids hshown, fun text j => hcommits.asked.id⟩
  · cases c with
    | create | update | delete => exact absurd trivial hc
    | login username password =>
      obtain ⟨jwt, rfl⟩ := login_eq_ok h
      cases hshown
    | get text =>
      obtain ⟨i, found, hparse, -, hfind, rfl⟩ := get_eq_ok_iff.mp h
      refine ⟨i, ?_, ?_⟩
      · rw [List.mem_singleton.mp hshown, Record.ofCompany, Store.id_of_find? hfind]
      · intro text' j hname hj
        cases hname
        exact Except.ok.inj (hparse.symm.trans hj)
    | list q =>
      obtain ⟨cs, rfl⟩ := list_eq_ok h
      obtain ⟨r, hr, rfl⟩ := List.mem_map.mp hshown
      obtain ⟨listed, -, rfl⟩ := List.mem_map.mp hr
      refine ⟨listed.id, rfl, ?_⟩
      intro text j hname
      cases hname

end Service

/-- **A company has one identity under all spellings.** A text is accepted just when it is blanks around one
of the four forms, for the identifier that its digits spell; the written form is in small letters and hyphens,
and is read back. A call that names its company by any accepted text is the call that names it by the written
form: the same answer, the same server after it, and the same event. What any call answers and tells bears
written forms only. -/
theorem spellings_are_one (s : Server) (m : Moment) (authorization : Option Bytes) :
    (∀ (text : String) (i : Company.Id), Company.Id.parse text = .ok i ↔
      ∃ before core after : List Char,
        (∀ c ∈ before, Text.isBlank c = true) ∧ (∀ c ∈ after, Text.isBlank c = true) ∧
        text.toList = before ++ (core ++ after) ∧ Company.Id.Spells i core) ∧
    (∀ i : Company.Id, Company.Id.parse i.text = .ok i ∧
      ∃ ds, Bytes.HexSpells ds i.octets ∧ Company.Id.Hyphenated ds i.text.toList ∧
        ∀ c ∈ ds, c ∈ "0123456789abcdef".toList) ∧
    (∀ (c : Call) (text : String) (i : Company.Id), c.name? = some text →
      Company.Id.parse text = .ok i →
      s.call m authorization c = s.call m authorization (c.under i.text) ∧
      s.service.handle m authorization c = s.service.handle m authorization (c.under i.text) ∧
      (∀ reply, (s.call m authorization c).1 = .ok reply → ∀ shown ∈ reply.ids, shown = i.text) ∧
      ∀ e, (s.service.handle m authorization c).event = some e → e.Bears i) ∧
    ∀ c : Call,
      (∀ reply, (s.call m authorization c).1 = .ok reply →
        ∀ shown ∈ reply.ids, ∃ i : Company.Id, shown = i.text) ∧
      ∀ e, (s.service.handle m authorization c).event = some e → ∃ i, e.Bears i := by
  refine ⟨fun text i => Company.Id.parse_eq_ok_iff, ?_, ?_, ?_⟩
  · intro i
    refine ⟨i.parse_text, Bytes.hexChars i.octets, Company.Id.hexSpells_hexChars _, ?_, ?_⟩
    · rw [Company.Id.text, String.toList_ofList]
      exact i.hyphenated_textChars
    · have hdigit : ∀ n : Fin 16, Bytes.hexDigit n ∈ "0123456789abcdef".toList := by decide
      intro c hc
      obtain ⟨n, rfl⟩ := Bytes.exists_of_mem_hexChars hc
      exact hdigit n
  · intro c text i hname hparse
    refine ⟨(s.call_under m authorization hname hparse).symm,
      (s.service.handle_under m authorization hname hparse).symm, ?_, ?_⟩
    · intro reply hreply shown hshown
      obtain ⟨j, rfl, hsame⟩ := Service.shows_written hreply hshown
      rw [hsame text i hname hparse]
    · intro e he
      obtain ⟨ch, hasks, rfl⟩ := Service.asks_of_event he
      rw [← hasks.id hname hparse]
      exact ch.bears_event
  · intro c
    refine ⟨?_, ?_⟩
    · intro reply hreply shown hshown
      obtain ⟨i, hi, -⟩ := Service.shows_written hreply hshown
      exact ⟨i, hi⟩
    · intro e he
      obtain ⟨ch, -, rfl⟩ := Service.asks_of_event he
      exact ⟨ch.id, ch.bears_event⟩

/-- A company whose identifier has letters. -/
def lettered : Company := { acme with id := ⟨List.replicate 16 0xAB, rfl⟩ }

def letteredServer : Server :=
  .inMemory sampleKey { companies := [lettered], users := [ada] } sampleServer.queue

/-- A spelling of it with blanks, a prefix and capitals. -/
def letteredText : String := "\u3000URN:uuid:ABABABAB-abab-ABAB-ABAB-ABABABABABAB\n"

theorem letteredText_is_the_company :
    Company.Id.parse letteredText = .ok lettered.id ∧
    lettered.id.text = "abababab-abab-abab-abab-abababababab" ∧
    (letteredServer.call sampleMoment none (.get letteredText)).1 =
      .ok (.found (.ofCompany lettered)) ∧
    letteredServer.call sampleMoment adasTurn.authorization (.delete letteredText) =
      letteredServer.call sampleMoment adasTurn.authorization (.delete lettered.id.text) := by
  have hparse : Company.Id.parse letteredText = .ok lettered.id := by decide
  refine ⟨hparse, by decide, ?_, ?_⟩
  · obtain ⟨-, -, hnamed, -⟩ := spellings_are_one letteredServer sampleMoment none
    obtain ⟨hsame, -⟩ := hnamed (.get letteredText) letteredText lettered.id rfl hparse
    rw [hsame]
    exact Service.get_eq_ok_iff.mpr ⟨_, _, lettered.id.parse_text, rfl, rfl, rfl⟩
  · obtain ⟨-, -, hnamed, -⟩ := spellings_are_one letteredServer sampleMoment adasTurn.authorization
    exact (hnamed (.delete letteredText) letteredText lettered.id rfl hparse).1

end Rpc

end CompanyRegistry
