import CompanyRegistry.Proofs.Http.Headers
import CompanyRegistry.Proofs.Rpc.Changes
import CompanyRegistry.Rest.Site
import Mathlib.Tactic.SplitIfs

/-!
# What requests ask for

Which requests go to the calls of the contract (`Addressed`), which call such a request describes (`Reads`)
and what it carries as authorisation (`carried`), each said without the tables of the site. `serve_of_reads`
and `serve_of_not_reads` say that the site makes exactly the call that a request describes, and none if it
describes none; what goes to no call changes nothing either (`site_of_not_reads`).
-/

namespace CompanyRegistry.Rest

/-! ### Legal forms -/

/-- The names of the legal forms and of none, with their numbers in the contract. -/
def kindNames : List (String × Int32) := [
  ("COMPANY_TYPE_UNSPECIFIED", 0),
  ("COMPANY_TYPE_CORPORATION", 1),
  ("COMPANY_TYPE_NON_PROFIT", 2),
  ("COMPANY_TYPE_COOPERATIVE", 3),
  ("COMPANY_TYPE_SOLE_PROPRIETORSHIP", 4)]

/-- The number that is meant by a name; none is given by the empty one. -/
def KindNumber (name : String) (n : Int32) : Prop :=
  (name = "" ∧ n = 0) ∨ (name, n) ∈ kindNames

theorem mem_kindNames (k : Option Company.Kind) : (kindName k, numberOf k) ∈ kindNames := by
  cases k with
  | none => decide
  | some k => cases k <;> decide

theorem find?_kindName (k : Option Company.Kind) :
    named.find? (kindName · == kindName k) = some k := by
  cases k with
  | none => decide
  | some k => cases k <;> decide

theorem exists_of_mem_kindNames {name : String} {n : Int32} (h : (name, n) ∈ kindNames) :
    ∃ k, name = kindName k ∧ n = numberOf k := by
  simp only [kindNames, List.mem_cons, Prod.mk.injEq, List.not_mem_nil, or_false] at h
  rcases h with ⟨rfl, rfl⟩ | ⟨rfl, rfl⟩ | ⟨rfl, rfl⟩ | ⟨rfl, rfl⟩ | ⟨rfl, rfl⟩
  · exact ⟨none, rfl, rfl⟩
  · exact ⟨some .corporation, rfl, rfl⟩
  · exact ⟨some .nonProfit, rfl, rfl⟩
  · exact ⟨some .cooperative, rfl, rfl⟩
  · exact ⟨some .soleProprietorship, rfl, rfl⟩

theorem kindName_ne_empty (k : Option Company.Kind) : kindName k ≠ "" := by
  cases k with
  | none => decide
  | some k => cases k <;> decide

theorem numberOfName_eq_ok_iff {name : String} {n : Int32} :
    numberOfName name = .ok n ↔ KindNumber name n := by
  constructor
  · intro h
    unfold numberOfName at h
    by_cases hempty : name = ""
    · rw [if_pos hempty] at h
      exact Or.inl ⟨hempty, (Except.ok.inj h).symm⟩
    · rw [if_neg hempty] at h
      cases hfind : named.find? (kindName · == name) with
      | none =>
        rw [hfind] at h
        cases h
      | some k =>
        rw [hfind] at h
        have hname : kindName k = name := by simpa using List.find?_some hfind
        cases h
        rw [← hname]
        exact Or.inr (mem_kindNames k)
  · rintro (⟨rfl, rfl⟩ | hmem)
    · rfl
    · obtain ⟨k, rfl, rfl⟩ := exists_of_mem_kindNames hmem
      rw [numberOfName, if_neg (kindName_ne_empty k), find?_kindName]

/-! ### Requests -/

/-- The path is that of a company, which has this name there. -/
def CompanyPath (path : String) (name : List Char) : Prop :=
  path.toList = "/api/companies/".toList ++ name ∧ name ≠ [] ∧ '/' ∉ name

/-- A name in a path stands for this text. -/
def Spells (name : List Char) (id : String) : Prop :=
  Bytes.ofUtf8? (Http.percentDecode (Bytes.utf8 (String.ofList name))) = some id

/-- The request goes to one of the calls. -/
inductive Addressed (q : Http.Request) : Prop
  | login (hmethod : q.method = "POST") (hpath : q.path = "/api/internal/login")
  | create (hmethod : q.method = "POST") (hpath : q.path = "/api/companies")
  | list (hmethod : q.method = "GET") (hpath : q.path = "/api/companies")
  | get {name : List Char} (hmethod : q.method = "GET") (hpath : CompanyPath q.path name)
  | update {name : List Char} (hmethod : q.method = "PUT") (hpath : CompanyPath q.path name)
  | delete {name : List Char} (hmethod : q.method = "DELETE") (hpath : CompanyPath q.path name)

/-- The record of a form under an identifier. -/
def Form.under (f : Form) (id : String) (kind : Int32) : Rpc.Record :=
  ⟨id, f.name, f.description, f.employees, f.registered, kind⟩

/-- The request describes this call. An update is of the company in the path, whichever the body names. -/
inductive Reads (q : Http.Request) : Rpc.Call → Prop
  | login {c : Credentials} (hmethod : q.method = "POST") (hpath : q.path = "/api/internal/login")
      (hbody : readBody Credentials.ofJson q = .ok c) : Reads q (.login c.user c.password)
  | create {f : Form} {n : Int32} (hmethod : q.method = "POST") (hpath : q.path = "/api/companies")
      (hbody : readBody Form.ofBody q = .ok f) (hkind : KindNumber f.kind n) :
      Reads q (.create (some (f.under f.id n)))
  | list {f : QueryForm} {n : Int32} (hmethod : q.method = "GET") (hpath : q.path = "/api/companies")
      (hquery : readQuery (q.query.getD "") = some f) (hkind : KindNumber f.kind n) :
      Reads q (.list ⟨f.name, n, f.registered, f.limit, f.offset⟩)
  | get {name : List Char} {id : String} (hmethod : q.method = "GET")
      (hpath : CompanyPath q.path name) (hid : Spells name id) : Reads q (.get id)
  | update {name : List Char} {id : String} {f : Form} {n : Int32} (hmethod : q.method = "PUT")
      (hpath : CompanyPath q.path name) (hid : Spells name id)
      (hbody : readBody Form.ofBody q = .ok f) (hkind : KindNumber f.kind n) :
      Reads q (.update (some (f.under id n)))
  | delete {name : List Char} {id : String} (hmethod : q.method = "DELETE")
      (hpath : CompanyPath q.path name) (hid : Spells name id) : Reads q (.delete id)

/-! ### Routes -/

theorem ofPath_company {path : String} {name : List Char} (h : CompanyPath path name) :
    Route.ofPath path = .company name := by
  obtain ⟨hpath, hname, hslash⟩ := h
  have hsplit : path.toList = Route.companiesPath ++ '/' :: name := hpath
  have hfixed : path ≠ "/health" ∧ path ≠ "/api" ∧ path ≠ "/api/internal/login" := by
    refine ⟨?_, ?_, ?_⟩ <;>
    · rintro rfl
      simp at hpath
  have hlonger : path.toList ≠ Route.companiesPath := by
    rw [hsplit]
    intro heq
    have hlength := congrArg List.length heq
    rw [List.length_append, List.length_cons] at hlength
    omega
  have hprefix : Route.companiesPath.isPrefixOf path.toList = true := by
    rw [hsplit, List.isPrefixOf_iff_prefix]
    exact List.prefix_append _ _
  have hrest : path.toList.drop Route.companiesPath.length = '/' :: name := by
    rw [hsplit, List.drop_left]
  have hplain : ¬ (name = [] ∨ name.contains '/' = true) := by
    rintro (hempty | hcontains)
    · exact hname hempty
    · exact hslash (List.contains_iff_mem.mp hcontains)
  rw [Route.ofPath, if_neg hfixed.1, if_neg hfixed.2.1, if_neg hfixed.2.2, if_neg hlonger, hprefix,
    hrest]
  exact if_neg hplain

/-- A route is that of the paths that lead to it. -/
def Route.Leads (path : String) : Route → Prop
  | .login => path = "/api/internal/login"
  | .companies => path = "/api/companies"
  | .company name => CompanyPath path name
  | .health | .docs | .file => True

theorem leads_ofPath (path : String) : (Route.ofPath path).Leads path := by
  unfold Route.ofPath
  split_ifs with hhealth hdocs hlogin hcompanies
  · trivial
  · trivial
  · exact hlogin
  · exact String.ext hcompanies
  · split
    · rename_i name hprefix hrest
      split_ifs with hname
      · trivial
      · obtain ⟨rest, hpath⟩ := List.isPrefixOf_iff_prefix.mp hprefix
        rw [← hpath, List.drop_left] at hrest
        refine ⟨?_, ?_, ?_⟩
        · rw [← hpath, hrest]
          rfl
        · intro hempty
          exact hname (Or.inl hempty)
        · intro hslash
          exact hname (Or.inr (List.contains_iff_mem.mpr hslash))
    · trivial

/-- Only the requests to the calls have an endpoint. -/
theorem addressed_of_endpoint {q : Http.Request} {e : String → Endpoint}
    (h : (Route.ofPath q.path).endpoint? q.method = some e) : Addressed q := by
  have hleads := leads_ofPath q.path
  generalize Route.ofPath q.path = r at h hleads
  unfold Route.endpoint? at h
  split at h
  · exact .login ‹_› hleads
  · exact .create ‹_› hleads
  · exact .list ‹_› hleads
  · exact .get ‹_› hleads
  · exact .update ‹_› hleads
  · exact .delete ‹_› hleads
  · cases h

/-- A request to an endpoint is answered there, once the identifier in its path is read. -/
theorem site_eq {q : Http.Request} {r : Route} {e : String → Endpoint}
    (hroute : Route.ofPath q.path = r) (hendpoint : r.endpoint? q.method = some e) (files : Files)
    (m : Rpc.Moment) (s : Rpc.Server) :
    site files m q s = match r.id? with
      | none => (wrongPath, s)
      | some id => (e id).serve m q s := by
  have hhead : q.method ≠ "HEAD" := by
    intro hhead
    rw [hhead] at hendpoint
    cases r <;> simp [Route.endpoint?] at hendpoint
  rw [site, if_neg hhead, answer]
  simp only [hroute]
  cases r with
  | health | docs | file => cases hendpoint
  | login | companies =>
    rw [hendpoint]
    rfl
  | company name =>
    simp only [hendpoint]
    cases Route.id? (.company name) with
    | none => rfl
    | some id => rfl

/-! ### Calls -/

theorem readRecord_eq_ok_iff {q : Http.Request} {r : Rpc.Record} :
    readRecord q = .ok r ↔
      ∃ f n, readBody Form.ofBody q = .ok f ∧ KindNumber f.kind n ∧ r = f.under f.id n := by
  simp only [readRecord, Form.toRecord, bind_eq_ok_iff, mapError_eq_ok_iff, numberOfName_eq_ok_iff]
  constructor
  · rintro ⟨f, hbody, n, hkind, hr⟩
    exact ⟨f, n, hbody, hkind, (Except.ok.inj hr).symm⟩
  · rintro ⟨f, n, hbody, hkind, rfl⟩
    exact ⟨f, hbody, n, hkind, rfl⟩

/-- The call that a request describes is read at the endpoint that it goes to. -/
theorem Reads.readCall {q : Http.Request} {call : Rpc.Call} (h : Reads q call) :
    ∃ r e id, Route.ofPath q.path = r ∧ r.endpoint? q.method = some e ∧ r.id? = some id ∧
      (e id).readCall q = .ok call := by
  cases h with
  | login hmethod hpath hbody =>
    rw [hmethod, hpath]
    refine ⟨.login, _, "", by decide, rfl, rfl, ?_⟩
    simp only [Endpoint.readCall, hbody]
    rfl
  | create hmethod hpath hbody hkind =>
    rw [hmethod, hpath]
    refine ⟨.companies, _, "", by decide, rfl, rfl, ?_⟩
    simp only [Endpoint.readCall, readRecord_eq_ok_iff.mpr ⟨_, _, hbody, hkind, rfl⟩]
    rfl
  | list hmethod hpath hquery hkind =>
    rw [hmethod, hpath]
    refine ⟨.companies, _, "", by decide, rfl, rfl, ?_⟩
    simp only [Endpoint.readCall, hquery, QueryForm.toQuery, numberOfName_eq_ok_iff.mpr hkind]
    rfl
  | get hmethod hpath hid =>
    rw [hmethod]
    exact ⟨_, .get, _, ofPath_company hpath, rfl, hid, rfl⟩
  | update hmethod hpath hid hbody hkind =>
    rw [hmethod]
    refine ⟨_, .update, _, ofPath_company hpath, rfl, hid, ?_⟩
    simp only [Endpoint.readCall, readRecord_eq_ok_iff.mpr ⟨_, _, hbody, hkind, rfl⟩]
    rfl
  | delete hmethod hpath hid =>
    rw [hmethod]
    exact ⟨_, .delete, _, ofPath_company hpath, rfl, hid, rfl⟩

/-- A request to one of the calls goes to an endpoint, and describes every call that is read there. -/
theorem Addressed.endpoint {q : Http.Request} (h : Addressed q) :
    ∃ r e, Route.ofPath q.path = r ∧ r.endpoint? q.method = some e ∧
      ∀ id call, r.id? = some id → (e id).readCall q = .ok call → Reads q call := by
  cases h with
  | login hmethod hpath =>
    refine ⟨.login, fun _ => .login, by rw [hpath]; decide, by rw [hmethod]; rfl, ?_⟩
    intro id call _ hcall
    simp only [Endpoint.readCall, bind_eq_ok_iff, mapError_eq_ok_iff] at hcall
    obtain ⟨c, hbody, hcall⟩ := hcall
    cases hcall
    exact .login hmethod hpath hbody
  | create hmethod hpath =>
    refine ⟨.companies, fun _ => .create, by rw [hpath]; decide, by rw [hmethod]; rfl, ?_⟩
    intro id call _ hcall
    simp only [Endpoint.readCall, bind_eq_ok_iff, readRecord_eq_ok_iff] at hcall
    obtain ⟨r, ⟨f, n, hbody, hkind, rfl⟩, hcall⟩ := hcall
    cases hcall
    exact .create hmethod hpath hbody hkind
  | list hmethod hpath =>
    refine ⟨.companies, fun _ => .list, by rw [hpath]; decide, by rw [hmethod]; rfl, ?_⟩
    intro id call _ hcall
    cases hquery : readQuery (q.query.getD "") with
    | none =>
      simp only [Endpoint.readCall, hquery] at hcall
      cases hcall
    | some f =>
      simp only [Endpoint.readCall, hquery, QueryForm.toQuery, bind_eq_ok_iff, mapError_eq_ok_iff,
        numberOfName_eq_ok_iff] at hcall
      obtain ⟨_, ⟨n, hkind, hn⟩, hcall⟩ := hcall
      cases hn
      cases hcall
      exact .list hmethod hpath hquery hkind
  | get hmethod hpath =>
    refine ⟨_, .get, ofPath_company hpath, by rw [hmethod]; rfl, ?_⟩
    intro id call hid hcall
    cases hcall
    exact .get hmethod hpath hid
  | update hmethod hpath =>
    refine ⟨_, .update, ofPath_company hpath, by rw [hmethod]; rfl, ?_⟩
    intro id call hid hcall
    simp only [Endpoint.readCall, bind_eq_ok_iff, readRecord_eq_ok_iff] at hcall
    obtain ⟨r, ⟨f, n, hbody, hkind, rfl⟩, hcall⟩ := hcall
    cases hcall
    exact .update hmethod hpath hid hbody hkind
  | delete hmethod hpath =>
    refine ⟨_, .delete, ofPath_company hpath, by rw [hmethod]; rfl, ?_⟩
    intro id call hid hcall
    cases hcall
    exact .delete hmethod hpath hid

/-! ### Authorisations -/

/-- The authorisation that a request carries: the value of the gateway's own header if there is one, else
that of `authorization`, and nothing if it is not printable. -/
def carried (h : Http.Headers) : Option Bytes :=
  ((h.first? "grpc-metadata-authorization").or (h.first? "authorization")).filter
    fun value => value.all Http.isPrintable

theorem forwarded_eq_carried (h : Http.Headers) : forwarded h = carried h := by
  have hshown : ∀ value : Option Bytes, (value.bind Http.headerText?).map Bytes.utf8 =
      value.filter fun value => value.all Http.isPrintable := by
    intro value
    cases value with
    | none => rfl
    | some value =>
      by_cases hprintable : value.all Http.isPrintable = true
      · have hutf8 := Http.utf8_latin1_printable (Http.all_isPrintable_iff.mp hprintable)
        simp [Http.headerText?, Option.filter, hprintable, hutf8]
      · simp [Http.headerText?, Option.filter, hprintable]
  have hchosen : (h.first? tokenHeader <|> h.first? "authorization") =
      (h.first? "grpc-metadata-authorization").or (h.first? "authorization") := by
    show (h.first? "grpc-metadata-authorization" <|> _) = _
    cases h.first? "grpc-metadata-authorization" <;> rfl
  rw [forwarded, forwardedToken, hchosen, hshown, carried]

/-! ### What the site does -/

theorem serve_of_reads {q : Http.Request} {call : Rpc.Call} (h : Reads q call) (files : Files)
    (m : Rpc.Moment) (s : Rpc.Server) :
    site files m q s =
      (answered (s.call m (carried q.headers) call).1, (s.call m (carried q.headers) call).2) := by
  obtain ⟨r, e, id, hroute, hendpoint, hid, hcall⟩ := h.readCall
  rw [site_eq hroute hendpoint, hid]
  simp only [Endpoint.serve, hcall, forwarded_eq_carried]

theorem serve_of_not_reads {q : Http.Request} (h : Addressed q) (hnone : ∀ call, ¬ Reads q call)
    (files : Files) (m : Rpc.Moment) (s : Rpc.Server) :
    (site files m q s).1.status = 400 ∧ (site files m q s).2 = s := by
  obtain ⟨r, e, hroute, hendpoint, hreads⟩ := h.endpoint
  rw [site_eq hroute hendpoint]
  cases hid : r.id? with
  | none => exact ⟨rfl, rfl⟩
  | some id =>
    cases hcall : (e id).readCall q with
    | ok call => exact absurd (hreads id call hid hcall) (hnone call)
    | error text =>
      simp only [Endpoint.serve, hcall]
      exact ⟨rfl, trivial⟩

theorem Reads.not_changes {q : Http.Request} {call : Rpc.Call} (h : Reads q call)
    (hget : q.method = "GET") : ¬ call.Changes := by
  cases h with
  | login | get | list => exact id
  | create hmethod | update hmethod | delete hmethod =>
    rw [hget] at hmethod
    exact absurd hmethod (by decide)

/-- A request to no call leaves the server as it was. -/
theorem answer_of_not_addressed {q : Http.Request} (h : ¬ Addressed q) (files : Files)
    (m : Rpc.Moment) (s : Rpc.Server) : (answer files m q s).2 = s := by
  have hnone : (Route.ofPath q.path).endpoint? q.method = none := by
    cases hendpoint : (Route.ofPath q.path).endpoint? q.method with
    | none => rfl
    | some e => exact absurd (addressed_of_endpoint hendpoint) h
  unfold answer
  cases hroute : Route.ofPath q.path with
  | health | docs | file => rfl
  | login | companies | company =>
    rw [hroute] at hnone
    simp only [hnone]

/-- A request that describes no call leaves the server as it was, the method `HEAD` included: it stands
for `GET`, whose calls change nothing. -/
theorem site_of_not_reads {q : Http.Request} (h : ∀ call, ¬ Reads q call) (files : Files)
    (m : Rpc.Moment) (s : Rpc.Server) : (site files m q s).2 = s := by
  by_cases haddressed : Addressed q
  · exact (serve_of_not_reads haddressed h files m s).2
  · by_cases hhead : q.method = "HEAD"
    · have hsame : (site files m q s).2 = (site files m { q with method := "GET" } s).2 := by
        simp only [site, if_pos hhead, if_neg (show ¬ "GET" = "HEAD" by decide)]
      rw [hsame]
      by_cases hreads : ∃ call, Reads { q with method := "GET" } call
      · obtain ⟨call, hcall⟩ := hreads
        rw [serve_of_reads hcall]
        exact s.call_of_not_changes m _ (hcall.not_changes rfl)
      · by_cases hget : Addressed { q with method := "GET" }
        · exact (serve_of_not_reads hget (not_exists.mp hreads) files m s).2
        · rw [site, if_neg (show ¬ "GET" = "HEAD" by decide)]
          exact answer_of_not_addressed hget files m s
    · rw [site, if_neg hhead]
      exact answer_of_not_addressed haddressed files m s

end CompanyRegistry.Rest
