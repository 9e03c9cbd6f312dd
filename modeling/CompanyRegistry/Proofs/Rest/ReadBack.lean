import CompanyRegistry.Proofs.Company.Spellings
import CompanyRegistry.Proofs.Rest.Refinement
import CompanyRegistry.Proofs.Rpc.Failures
import CompanyRegistry.Proofs.Rpc.Payloads

/-!
# What is written is read back

A company that a `POST` creates or a `PUT` changes crosses JSON, form, message and record on its way into the
store, and all of them on its way out. `companies_are_read_back`: what a `GET` shows afterwards, under any
spelling of the company's identifier, is what the body said.
-/

namespace CompanyRegistry

/-! ### Addresses of a company -/

namespace Http

theorem percentDecode_of_plain {b : Bytes} (h : ∀ x ∈ b, x ≠ 0x25) : percentDecode b = b := by
  fun_induction percentDecode b with
  | case1 | case2 | case3 => rfl
  | case4 y z r high low hhigh hlow ih => exact absurd rfl (h _ List.mem_cons_self)
  | case5 y z r hdigits ih => exact absurd rfl (h _ List.mem_cons_self)
  | case6 x y z r hx ih => rw [ih fun w hw => h w (List.mem_cons_of_mem x hw)]

end Http

namespace Rest

/-- A path is that of a company: it ends in a spelling of the company's identifier. -/
def Leads (path : String) (id : Company.Id) : Prop :=
  ∃ name text, CompanyPath path name ∧ Spells name text ∧ Company.Id.parse text = .ok id

theorem companyPath_text (id : Company.Id) :
    CompanyPath ("/api/companies/" ++ id.text) id.textChars := by
  have hslash : ∀ c ∈ id.textChars, c ≠ '/' :=
    Company.Id.forall_textChars (by decide) (by decide) id
  have htext : id.text.toList = id.textChars := String.toList_ofList
  refine ⟨?_, ?_, ?_⟩
  · rw [String.toList_append, htext]
  · simp [Company.Id.textChars, Company.Id.groupLengths, Company.Id.grouped]
  · intro hmem
    exact hslash '/' hmem rfl

theorem spells_text (id : Company.Id) : Spells id.textChars id.text := by
  have hascii : ∀ c ∈ id.textChars, c.toNat < 0x80 :=
    Company.Id.forall_textChars (by decide) (by decide) id
  have hplain : ∀ c ∈ id.textChars, UInt8.ofNat c.toNat ≠ 0x25 :=
    Company.Id.forall_textChars (by decide) (by decide) id
  have hoctets : ∀ x ∈ Bytes.utf8 id.text, x ≠ 0x25 := by
    intro x hx
    rw [Company.Id.text, Bytes.utf8_ofList] at hx
    obtain ⟨c, hc, hx⟩ := List.mem_flatMap.mp hx
    rw [Bytes.encode_ascii (hascii c hc), List.mem_singleton] at hx
    rw [hx]
    exact hplain c hc
  change Bytes.ofUtf8? (Http.percentDecode (Bytes.utf8 id.text)) = some id.text
  rw [Http.percentDecode_of_plain hoctets, Bytes.ofUtf8?_utf8]

theorem leads_text (id : Company.Id) : Leads ("/api/companies/" ++ id.text) id :=
  ⟨id.textChars, id.text, companyPath_text id, spells_text id, id.parse_text⟩

/-! ### What is shown -/

/-- A `GET` of the company, at any moment and by whomever, shows the fields of a form under the company's
own identifier, and changes nothing. -/
def Shown (files : Files) (s : Rpc.Server) (id : Company.Id) (form : Form) : Prop :=
  ∀ (m : Rpc.Moment) (q : Http.Request), q.method = "GET" → Leads q.path id →
    (site files m q s).1.status = 200 ∧ (site files m q s).2 = s ∧
    Holds (site files m q s).1 (.record [("company", .record [
      ("id", .text id.text),
      ("name", .text form.name),
      ("description", .text form.description),
      ("employeesCount", .whole form.employees.toNat),
      ("registered", .bool form.registered),
      ("companyType", .text form.kind)])])

/-- The store has the company of a form under an identifier. -/
def Keeps (s : Rpc.Service) (id : Company.Id) (form : Form) : Prop :=
  s.outage.companies = none ∧ ∃ c, s.store.find? id = some c ∧
    Form.ofRecord (.ofCompany c) = { form with id := id.text }

theorem shown_of_keeps {files : Files} {s : Rpc.Server} {id : Company.Id} {form : Form}
    (h : Keeps s.service id form) : Shown files s id form := by
  obtain ⟨horder, c, hfind, hform⟩ := h
  rintro m q hmethod ⟨name, text, hpath, hspells, hparse⟩
  have hget : s.service.get text = .ok (.found (.ofCompany c)) := by
    simp only [Rpc.Service.get, bind_eq_ok_iff]
    exact ⟨id, Rpc.Service.readId_eq_ok_iff.mpr hparse, c,
      Rpc.Service.fromStorage_eq_ok_iff.mpr ⟨horder, Store.get_eq_ok_iff.mpr hfind⟩, rfl⟩
  have hidle : ¬ (Rpc.Call.get text).Changes := not_false
  have hanswer : (s.call m (carried q.headers) (.get text)).1 = .ok (.found (.ofCompany c)) := hget
  rw [serve_of_reads (.get hmethod hpath hspells), hanswer]
  refine ⟨rfl, s.call_of_not_changes m _ hidle, ?_⟩
  have hbody : replyJson (.found (.ofCompany c)) = Form.toBody { form with id := id.text } := by
    rw [replyJson, hform]
  change Holds _ (Form.toBody { form with id := id.text })
  rw [← hbody]
  exact holds_jsonResponse (written_reply _) 200

/-! ### What is accepted -/

theorem code_of_httpStatus {code : Rpc.Code} (h : httpStatus code = 200) : code = .ok := by
  cases code <;> first | rfl | cases h

/-- A request to a call is answered well only if it describes a call and that is answered well. -/
theorem reply_of_accepted {files : Files} {m : Rpc.Moment} {q : Http.Request} {s : Rpc.Server}
    (haddressed : Addressed q) (haccepted : (site files m q s).1.status = 200) :
    ∃ call reply, Reads q call ∧ (s.call m (carried q.headers) call).1 = .ok reply := by
  by_cases hreads : ∃ call, Reads q call
  · obtain ⟨call, hcall⟩ := hreads
    rw [serve_of_reads hcall] at haccepted
    cases hanswer : (s.call m (carried q.headers) call).1 with
    | ok reply => exact ⟨call, reply, hcall, hanswer⟩
    | error status =>
      rw [hanswer] at haccepted
      exact absurd (code_of_httpStatus haccepted)
        (s.service.handle_coded m (carried q.headers) call status hanswer)
  · obtain ⟨hwrong, -⟩ := serve_of_not_reads haddressed (not_exists.mp hreads) files m s
    rw [hwrong] at haccepted
    cases haccepted

theorem name_of_kindNumber {name : String} {n : Int32} {kind : Company.Kind}
    (hname : KindNumber name n) (hkind : Rpc.kindOfNumber n = .ok (some kind)) :
    nameOfNumber (Rpc.kindNumber kind) = name := by
  rcases hname with ⟨-, rfl⟩ | hmem
  · cases hkind
  · obtain ⟨k, rfl, rfl⟩ := exists_of_mem_kindNames hmem
    cases k with
    | none => cases hkind
    | some k =>
      have hsame : Rpc.kindOfNumber (numberOf (some k)) = .ok (some k) := by
        cases k <;> rfl
      cases hsame.symm.trans hkind
      cases kind <;> rfl

/-- What is kept of a form is shown as the form. -/
theorem ofRecord_described {form : Form} {n : Int32} {kind : Company.Kind} (text : String)
    (hname : KindNumber form.kind n) (hkind : Rpc.kindOfNumber n = .ok (some kind))
    (id : Company.Id) (now : Instant) :
    Form.ofRecord (.ofCompany ((form.under text n).described id kind now)) =
      { form with id := id.text } := by
  have hshown := name_of_kindNumber hname hkind
  simp only [Form.ofRecord, Rpc.Record.ofCompany, Rpc.Record.described, Form.under, hshown]

/-! ### Creating and changing over the site -/

variable {files : Files} {m : Rpc.Moment} {q : Http.Request} {s : Rpc.Server}

theorem keeps_of_post (hmethod : q.method = "POST") (hpath : q.path = "/api/companies")
    (haccepted : (site files m q s).1.status = 200) :
    ∃ form id, readBody Form.ofBody q = .ok form ∧ Rpc.NewId m.fresh form.id id ∧
      Holds (site files m q s).1 (.record [("id", .text id.text)]) ∧
      Keeps (site files m q s).2.service id form := by
  obtain ⟨call, reply, hreads, hanswer⟩ := reply_of_accepted (.create hmethod hpath) haccepted
  rw [serve_of_reads hreads, hanswer]
  cases hreads with
  | create _ _ hbody hname =>
    obtain ⟨ch, ⟨-, hasked, horder, htaken⟩, rfl⟩ := Rpc.Service.commits_of_ok hanswer trivial
    cases hasked with
    | create hid hkind =>
      have hfind := (Store.find?_create htaken _).trans (if_pos rfl)
      refine ⟨_, _, hbody, hid, holds_jsonResponse (written_reply (.created _)) 200, horder, _,
        hfind, ?_⟩
      exact ofRecord_described _ hname hkind _ m.now
  | login _ hother =>
    rw [hpath] at hother
    exact absurd hother (by decide)
  | list hother | get hother | update hother | delete hother =>
    rw [hmethod] at hother
    exact absurd hother (by decide)

theorem companyPath_unique {path : String} {name name' : List Char} (h : CompanyPath path name)
    (h' : CompanyPath path name') : name = name' :=
  List.append_cancel_left (h.1.symm.trans h'.1)

theorem spells_unique {name : List Char} {text text' : String} (h : Spells name text)
    (h' : Spells name text') : text = text' :=
  Option.some.inj (h.symm.trans h')

theorem keeps_of_put {id : Company.Id} (hmethod : q.method = "PUT") (hleads : Leads q.path id)
    (haccepted : (site files m q s).1.status = 200) :
    ∃ form, readBody Form.ofBody q = .ok form ∧ Keeps (site files m q s).2.service id form := by
  obtain ⟨name, text, hpath, hspells, hparse⟩ := hleads
  obtain ⟨call, reply, hreads, hanswer⟩ := reply_of_accepted (.update hmethod hpath) haccepted
  rw [serve_of_reads hreads]
  cases hreads with
  | update _ hpath' hspells' hbody hname =>
    cases companyPath_unique hpath hpath'
    cases spells_unique hspells hspells'
    obtain ⟨ch, ⟨-, hasked, horder, htaken⟩, -⟩ := Rpc.Service.commits_of_ok hanswer trivial
    cases hasked with
    | update hparse' hkind =>
      cases hparse.symm.trans hparse'
      obtain ⟨-, ⟨old, hold⟩, -⟩ := Store.update_eq_ok_iff.mp htaken
      have hfind := (Store.find?_update htaken id).trans (if_pos rfl)
      refine ⟨_, hbody, horder, _, hfind.trans (congrArg (Option.map _) hold), ?_⟩
      -- the times, in which alone the kept record differs, are not shown
      exact ofRecord_described text hname hkind id m.now
  | login hother | create hother | list hother | get hother | delete hother =>
    rw [hmethod] at hother
    exact absurd hother (by decide)

/-- **Companies are read back.** Whatever the state of the server,

* a `POST` that is accepted is answered with the identifier that the body names, or a fresh one if it is
  blank there; under it every following `GET`, by this spelling or another, shows the company of the body;
* after a `PUT` that is accepted, under whatever spelling of an identifier, every following `GET` of the
  company shows that of the body, all of it, but under the identifier in the path.

A field that the body leaves out has its default: an empty text, zero, or `false`. -/
theorem companies_are_read_back (files : Files) (m : Rpc.Moment) (q : Http.Request) (s : Rpc.Server)
    (haccepted : (site files m q s).1.status = 200) :
    (q.method = "POST" → q.path = "/api/companies" →
      ∃ form id, readBody Form.ofBody q = .ok form ∧ form.InBody (Json.read q.body).1 ∧
        Rpc.NewId m.fresh form.id id ∧
        Holds (site files m q s).1 (.record [("id", .text id.text)]) ∧
        Leads ("/api/companies/" ++ id.text) id ∧
        Shown files (site files m q s).2 id form) ∧
    ∀ id, q.method = "PUT" → Leads q.path id →
      ∃ form, readBody Form.ofBody q = .ok form ∧ form.InBody (Json.read q.body).1 ∧
        Leads ("/api/companies/" ++ id.text) id ∧
        Shown files (site files m q s).2 id form := by
  constructor
  · intro hmethod hpath
    obtain ⟨form, id, hbody, hid, hholds, hkeeps⟩ := keeps_of_post hmethod hpath haccepted
    exact ⟨form, id, hbody, Form.inBody_of_readBody hbody, hid, hholds, leads_text id,
      shown_of_keeps hkeeps⟩
  · intro id hmethod hleads
    obtain ⟨form, hbody, hkeeps⟩ := keeps_of_put hmethod hleads haccepted
    exact ⟨form, hbody, Form.inBody_of_readBody hbody, leads_text id, shown_of_keeps hkeeps⟩

/-! The user of the sample run creates and changes the company over the site; the body of the change names
another company, and leaves out what it does not set. -/

def changedBody : Json := .record [("company", .record [
  ("id", .text "another"),
  ("name", .text "Acme"),
  ("employeesCount", .whole 2),
  ("companyType", .text "COMPANY_TYPE_CORPORATION")])]

def changingRequest : Http.Request :=
  { typedRequest with
    method := "PUT"
    path := "/api/companies/" ++ Rpc.sampleMoment.fresh.text
    body := Bytes.utf8 changedBody.render }

theorem changingRequest_body : readBody Form.ofBody changingRequest =
    .ok { id := "another", name := "Acme", employees := 2, kind := "COMPANY_TYPE_CORPORATION" } := by
  decide +kernel

theorem changingRequest_reads : Reads changingRequest Rpc.adasUpdate.call :=
  .update rfl (companyPath_text Rpc.sampleMoment.fresh) (spells_text Rpc.sampleMoment.fresh)
    changingRequest_body (Or.inr (by decide))

theorem accepted_of_isOk {call : Rpc.Call} (h : Reads q call)
    (hanswer : (s.call m (carried q.headers) call).1.isOk) : (site files m q s).1.status = 200 := by
  rw [serve_of_reads h]
  cases hreply : (s.call m (carried q.headers) call).1 with
  | ok reply => rfl
  | error status =>
    rw [hreply] at hanswer
    cases hanswer

theorem acme_is_read_back :
    (∃ id, Shown {} (site {} Rpc.adasTurn.moment typedRequest Rpc.adasTurn.before).2 id
      { name := "Acme", employees := 1, kind := "COMPANY_TYPE_CORPORATION" }) ∧
    Shown {} (site {} Rpc.adasUpdate.moment changingRequest Rpc.adasUpdate.before).2
      Rpc.sampleMoment.fresh
      { id := "another", name := "Acme", employees := 2, kind := "COMPANY_TYPE_CORPORATION" } := by
  have hcreated : (site {} Rpc.adasTurn.moment typedRequest Rpc.adasTurn.before).1.status = 200 := by
    apply accepted_of_isOk typedRequest_reads
    rw [typedRequest_carries, ← Rpc.Turn.answer, Rpc.adasTurn_answered]
    rfl
  have hchanged :
      (site {} Rpc.adasUpdate.moment changingRequest Rpc.adasUpdate.before).1.status = 200 := by
    have hcarried : carried changingRequest.headers = Rpc.adasUpdate.authorization :=
      typedRequest_carries
    apply accepted_of_isOk changingRequest_reads
    rw [hcarried, ← Rpc.Turn.answer]
    exact Rpc.adasUpdate_answered.1
  constructor
  · obtain ⟨hpost, -⟩ := companies_are_read_back {} Rpc.adasTurn.moment typedRequest
      Rpc.adasTurn.before hcreated
    obtain ⟨form, id, hbody, -, -, -, -, hshown⟩ := hpost rfl rfl
    cases typedRequest_body.symm.trans hbody
    exact ⟨id, hshown⟩
  · obtain ⟨-, hput⟩ := companies_are_read_back {} Rpc.adasUpdate.moment changingRequest
      Rpc.adasUpdate.before hchanged
    obtain ⟨form, hbody, -, -, hshown⟩ := hput Rpc.sampleMoment.fresh rfl (leads_text _)
    cases changingRequest_body.symm.trans hbody
    exact hshown

end Rest

end CompanyRegistry
