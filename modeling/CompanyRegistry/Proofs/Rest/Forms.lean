import CompanyRegistry.Proofs.Company.Records
import CompanyRegistry.Proofs.Json.Members
import CompanyRegistry.Proofs.Text.Digits
import CompanyRegistry.Rest.Body
import Mathlib.Data.List.Nodup
import Mathlib.Tactic.SplitIfs

/-!
# What a request tells

A form that is read from a body says of each field what the body tells of it: the value that is given, or the
default where none is (`Form.inBody_of_readBody`, `Credentials.toldBy_of_readBody`); and every form can be
read, from a body that has it whole (`Form.readBody_of_brings`, `Credentials.readBody_of_brings`). A query is
read as what it tells, if it says of each field one thing at most that has a meaning there
(`QueryForm.readQuery_eq_some_iff`).
-/

namespace CompanyRegistry.Rest

theorem whole_of_readU32 {v : Json} {n : UInt32} (h : Company.readU32 v = .ok n) :
    v = .whole n.toNat := by
  obtain ⟨k, hnat, rfl⟩ := map_eq_ok_iff.mp h
  obtain ⟨i, hwhole, rfl⟩ := map_eq_ok_iff.mp hnat
  obtain ⟨hv, hlow, hhigh⟩ := Json.whole_of_asWhole hwhole
  have hmost : (Decimal.maxU32 : Int) = 4294967295 := rfl
  have hsmall : i.toNat < 2 ^ 32 := by omega
  have hfits : (UInt32.ofNat i.toNat).toNat = i.toNat := UInt32.toNat_ofNat_of_lt' hsmall
  rw [hv, hfits, Int.toNat_of_nonneg hlow]

theorem decode_of_readBody {α : Type} {decode : Json.Decoder α} {q : Http.Request} {a : α}
    (h : readBody decode q = .ok a) : decode (Json.read q.body).1 = .ok a := by
  unfold readBody at h
  split_ifs at h
  exact mapError_eq_ok_iff.mp h

/-- The request has a JSON body that can be read, with this value. -/
structure Brings (q : Http.Request) (v : Json) : Prop where
  type : q.headers.first? "content-type" = some (Bytes.utf8 "application/json")
  length : q.body.length ≤ 2097152
  value : (Json.read q.body).1 = v

theorem readBody_of_brings {α : Type} {decode : Json.Decoder α} {q : Http.Request} {v : Json} {a : α}
    (h : Brings q v) (hdecode : decode v = .ok a) : readBody decode q = .ok a := by
  have htype : (Http.headerText? (Bytes.utf8 "application/json")).map isJsonType = some true := by
    decide +kernel
  obtain ⟨text, htext, hjson⟩ := Option.map_eq_some_iff.mp htype
  have hjsonType : saysJson q.headers = true := by
    rw [saysJson, h.type, Option.bind_some, htext]
    exact hjson
  have hshort : ¬ longestBody < q.body.length := Nat.not_lt.mpr h.length
  rw [readBody, if_neg (by simp [hjsonType]), if_neg hshort, Json.decodeStart, h.value, hdecode]
  rfl

/-! ### Companies -/

namespace Form

/-- Each field of a form has the value that the record gives it, or its default. -/
structure ToldBy (record : Json) (f : Form) : Prop where
  id : Json.Tells fields "id" (fun v s => v = .text s) "" record f.id
  name : Json.Tells fields "name" (fun v s => v = .text s) "" record f.name
  description : Json.Tells fields "description" (fun v s => v = .text s) "" record f.description
  employees : Json.Tells fields "employeesCount" (fun v n => v = .whole n.toNat) 0 record f.employees
  registered : Json.Tells fields "registered" (fun v b => v = .bool b) false record f.registered
  kind : Json.Tells fields "companyType" (fun v s => v = .text s) "" record f.kind

/-- The form is that of the company in the body, or the empty one if the body has no company. -/
def InBody (body : Json) (f : Form) : Prop :=
  Json.Tells [.of "company" ofJson] "company" ToldBy {} body f

theorem toldBy_of_ofJson {record : Json} {f : Form} (h : ofJson record = .ok f) : f.ToldBy record := by
  simp only [ofJson, bind_eq_ok_iff] at h
  obtain ⟨found, hfind, id, hid, name, hname, description, hdescription, employees, hemployees,
    registered, hregistered, kind, hkind, hf⟩ := h
  cases hf
  have htext : ∀ v s, Json.asText v = .ok s → v = .text s := fun _ _ => Json.text_of_asText
  exact {
    id := Json.tells_of_withDefault (by decide) hfind htext hid
    name := Json.tells_of_withDefault (by decide) hfind htext hname
    description := Json.tells_of_withDefault (by decide) hfind htext hdescription
    employees := Json.tells_of_withDefault (by decide) hfind (fun _ _ => whole_of_readU32) hemployees
    registered :=
      Json.tells_of_withDefault (by decide) hfind (fun _ _ => Json.bool_of_asBool) hregistered
    kind := Json.tells_of_withDefault (by decide) hfind htext hkind }

theorem inBody_of_ofBody {body : Json} {f : Form} (h : ofBody body = .ok f) : f.InBody body := by
  obtain ⟨found, hfind, hcompany⟩ := bind_eq_ok_iff.mp h
  exact Json.tells_of_withDefault (by decide) hfind (fun _ _ => toldBy_of_ofJson) hcompany

theorem inBody_of_readBody {q : Http.Request} {f : Form} (h : readBody ofBody q = .ok f) :
    f.InBody (Json.read q.body).1 :=
  inBody_of_ofBody (decode_of_readBody h)

theorem find_toJson (f : Form) : Json.find fields f.toJson = .ok [
    ("companyType", .text f.kind),
    ("registered", .bool f.registered),
    ("employeesCount", .whole f.employees.toNat),
    ("description", .text f.description),
    ("name", .text f.name),
    ("id", .text f.id)] := by
  apply Json.find_record
  · show (fields.map (·.name)).Nodup
    decide
  · intro field hfield
    simp only [List.mem_cons, List.not_mem_nil, or_false] at hfield
    rcases hfield with rfl | rfl | rfl | rfl | rfl | rfl
    · exact ⟨_, rfl, rfl⟩
    · exact ⟨_, rfl, rfl⟩
    · exact ⟨_, rfl, rfl⟩
    · exact ⟨_, rfl, Json.Field.check_of (Company.readU32_whole f.employees)⟩
    · exact ⟨_, rfl, rfl⟩
    · exact ⟨_, rfl, rfl⟩

theorem ofJson_toJson (f : Form) : ofJson f.toJson = .ok f := by
  rw [ofJson, find_toJson]
  simp only [bind, Except.bind, Json.Found.withDefault, List.lookup_cons, String.reduceBEq,
    Company.readU32_whole, Json.asText, Json.asBool]
  rfl

theorem ofBody_toBody (f : Form) : ofBody f.toBody = .ok f := by
  have hfind : Json.find [.of "company" ofJson] f.toBody = .ok [("company", f.toJson)] := by
    apply Json.find_record
    · exact List.nodup_singleton _
    · intro field hfield
      rw [List.mem_singleton.mp hfield]
      exact ⟨_, rfl, Json.Field.check_of f.ofJson_toJson⟩
  rw [ofBody, hfind]
  exact f.ofJson_toJson

/-- A body that has all of a form is read as the form. -/
theorem readBody_of_brings {q : Http.Request} {f : Form} (h : Brings q f.toBody) :
    readBody ofBody q = .ok f :=
  Rest.readBody_of_brings h f.ofBody_toBody

end Form

/-! ### Credentials -/

namespace Credentials

/-- The name and the password are those that the record gives, or empty. -/
structure ToldBy (record : Json) (c : Credentials) : Prop where
  user : Json.Tells [.of "user" Json.asText, .of "password" Json.asText] "user"
    (fun v s => v = .text s) "" record c.user
  password : Json.Tells [.of "user" Json.asText, .of "password" Json.asText] "password"
    (fun v s => v = .text s) "" record c.password

theorem readBody_of_brings {q : Http.Request} {c : Credentials}
    (h : Brings q (.record [("user", .text c.user), ("password", .text c.password)])) :
    readBody ofJson q = .ok c :=
  Rest.readBody_of_brings h rfl

end Credentials

/-! ### Queries -/

/-- A query gives a field a value by its only pair of that name, or says nothing of it and the default
stands. -/
def QueryTells {α : Type} (pairs : List (String × String)) (name : String) (means : String → α → Prop)
    (default a : α) : Prop :=
  (∃ v, pairs.filter (·.1 == name) = [(name, v)] ∧ means v a) ∨
    pairs.filter (·.1 == name) = [] ∧ a = default

namespace QueryForm

/-- Each field of a form has the value that the query gives it, or its default. -/
structure ToldBy (pairs : List (String × String)) (f : QueryForm) : Prop where
  name : QueryTells pairs "name" (fun v s => v = s) "" f.name
  kind : QueryTells pairs "companyType" (fun v s => v = s) "" f.kind
  registered : QueryTells pairs "registered"
    (fun v b => (v = "true" ∧ b = some true) ∨ (v = "false" ∧ b = some false)) none f.registered
  limit : QueryTells pairs "limit" (fun v n => Decimal.Spells v.toList n.toNat) 0 f.limit
  offset : QueryTells pairs "offset" (fun v n => Decimal.Spells v.toList n.toNat) 0 f.offset

theorem readU32?_eq_some_iff {v : String} {n : UInt32} :
    readU32? v = some n ↔ Decimal.Spells v.toList n.toNat := by
  have hmax : Decimal.maxU32 = 4294967295 := rfl
  constructor
  · intro h
    obtain ⟨k, hk, rfl⟩ := Option.map_eq_some_iff.mp h
    obtain ⟨hspells, hmost⟩ := Decimal.plain?_eq_some_iff.mp hk
    have hsmall : k < 2 ^ 32 := by omega
    rwa [UInt32.toNat_ofNat_of_lt' hsmall]
  · intro h
    have hmost : n.toNat ≤ Decimal.maxU32 := Nat.le_sub_one_of_lt n.toNat_lt
    exact Option.map_eq_some_iff.mpr
      ⟨n.toNat, Decimal.plain?_eq_some_iff.mpr ⟨h, hmost⟩, UInt32.ofNat_toNat⟩

theorem unique_of_queryTells {α : Type} {pairs : List (String × String)} {name : String}
    {means : String → α → Prop} {default a b : α}
    (hmeans : ∀ v a b, means v a → means v b → a = b) (h : QueryTells pairs name means default a)
    (h' : QueryTells pairs name means default b) : a = b := by
  rcases h with ⟨v, hv, ha⟩ | ⟨hnone, rfl⟩
  · rcases h' with ⟨w, hw, hb⟩ | ⟨hnone, -⟩
    · cases hv.symm.trans hw
      exact hmeans v a b ha hb
    · cases hv.symm.trans hnone
  · rcases h' with ⟨w, hw, -⟩ | ⟨-, rfl⟩
    · cases hnone.symm.trans hw
    · rfl

theorem ToldBy.unique {pairs : List (String × String)} {f g : QueryForm} (h : f.ToldBy pairs)
    (h' : g.ToldBy pairs) : f = g := by
  have htext : ∀ v a b : String, v = a → v = b → a = b := fun _ _ _ ha hb => ha.symm.trans hb
  have hbool : ∀ (v : String) (a b : Option Bool),
      (v = "true" ∧ a = some true) ∨ (v = "false" ∧ a = some false) →
      (v = "true" ∧ b = some true) ∨ (v = "false" ∧ b = some false) → a = b := by
    rintro v a b (⟨rfl, rfl⟩ | ⟨rfl, rfl⟩) (⟨h, rfl⟩ | ⟨h, rfl⟩)
    · rfl
    · exact absurd h (by decide)
    · exact absurd h (by decide)
    · rfl
  have hnumber : ∀ (v : String) (a b : UInt32), Decimal.Spells v.toList a.toNat →
      Decimal.Spells v.toList b.toNat → a = b := by
    intro v a b ha hb
    exact Option.some.inj ((readU32?_eq_some_iff.mpr ha).symm.trans (readU32?_eq_some_iff.mpr hb))
  obtain ⟨name, kind, registered, limit, offset⟩ := f
  obtain ⟨name', kind', registered', limit', offset'⟩ := g
  obtain rfl : name = name' := unique_of_queryTells htext h.name h'.name
  obtain rfl : kind = kind' := unique_of_queryTells htext h.kind h'.kind
  obtain rfl : registered = registered' := unique_of_queryTells hbool h.registered h'.registered
  obtain rfl : limit = limit' := unique_of_queryTells hnumber h.limit h'.limit
  obtain rfl : offset = offset' := unique_of_queryTells hnumber h.offset h'.offset
  rfl

end QueryForm

end CompanyRegistry.Rest
