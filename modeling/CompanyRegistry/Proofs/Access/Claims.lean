import CompanyRegistry.Access.Claims
import CompanyRegistry.Proofs.Json.Decoding
import CompanyRegistry.Proofs.Json.Members
import CompanyRegistry.Proofs.Json.RoundTrip

/-!
# Claims in a token

Claims are read back from their JSON text, as a token carries them (`Claims.decodeText_toJson`): any kind of
bearer, any number of 64 bits, any text as a name.

In the other direction, claims that a payload is read as are told by it without a choice
(`Claims.told_of_ofPayload`): it is an object with exactly one member for each claim, the bearer's name
apart, which may be missing. A payload that says something twice is read as no claims at all.
-/

namespace CompanyRegistry

theorem Subject.ofLabel_label (s : Subject) : ofLabel s.label = s := by
  cases s <;> decide

theorem Subject.ofJson_toJson (s : Subject) : ofJson s.toJson = .ok s :=
  Json.asVariant_text (congrArg some s.ofLabel_label)

theorem User.readI64_whole (i : Int64) : readI64 (.whole i.toInt) = .ok i := by
  have hlow := i.le_toInt
  have hhigh := i.toInt_lt
  have hbounds : -Int.pow 2 63 ≤ i.toInt ∧ i.toInt ≤ Int.pow 2 63 - 1 := by
    have hpow : Int.pow 2 63 = 2 ^ 63 := rfl
    omega
  have hread : Json.asInt64 (.whole i.toInt) = .ok i.toInt := if_pos hbounds
  rw [readI64, hread]
  exact congrArg Except.ok (Int64.ofInt_toInt i)

theorem User.whole_of_readI64 {v : Json} {i : Int64} (h : readI64 v = .ok i) : v = .whole i.toInt := by
  obtain ⟨n, hread, rfl⟩ := map_eq_ok_iff.mp h
  obtain ⟨hwhole, hlow, hhigh⟩ := Json.whole_of_asWhole hread
  have hpow : Int.pow 2 63 = 2 ^ 63 := rfl
  rw [hwhole, Int64.toInt_ofInt_of_le (by omega) (by omega)]

namespace Claims

/-- The members of the JSON form, by name, the last one first. -/
def members (c : Claims) : Json.Found := [
  ("exp", .whole c.expires.toInt),
  ("nbf", .whole c.notBefore.toInt),
  ("aud", .text c.audience),
  ("iss", .text c.issuer),
  ("username", .text c.username),
  ("id", .whole c.id.toInt),
  ("sub", c.subject.toJson)]

theorem find_toJson (c : Claims) : Json.find fields c.toJson = .ok c.members := by
  apply Json.find_record
  · show (fields.map (·.name)).Nodup
    decide
  · intro f hf
    simp only [List.mem_cons, List.not_mem_nil, or_false] at hf
    rcases hf with rfl | rfl | rfl | rfl | rfl | rfl | rfl
    · exact ⟨_, rfl, Json.Field.check_of c.subject.ofJson_toJson⟩
    · exact ⟨_, rfl, Json.Field.check_of (User.readI64_whole c.id)⟩
    · exact ⟨_, rfl, rfl⟩
    · exact ⟨_, rfl, rfl⟩
    · exact ⟨_, rfl, rfl⟩
    · exact ⟨_, rfl, Json.Field.check_of (User.readI64_whole c.notBefore)⟩
    · exact ⟨_, rfl, Json.Field.check_of (User.readI64_whole c.expires)⟩

theorem written_toJson (c : Claims) : Json.Written c.toJson := by
  have hwhole : ∀ i : Int64, Json.Written (.whole i.toInt) := by
    intro i
    have hlow := i.le_toInt
    have hhigh := i.toInt_lt
    constructor <;> omega
  rw [toJson, Json.written_record_iff]
  intro f hf
  simp only [List.mem_cons, List.not_mem_nil, or_false] at hf
  rcases hf with rfl | rfl | rfl | rfl | rfl | rfl | rfl
  · trivial
  · exact hwhole c.id
  · trivial
  · trivial
  · trivial
  · exact hwhole c.notBefore
  · exact hwhole c.expires

theorem ofFound_members (c : Claims) : ofFound c.members = .ok c := by
  simp only [bind, Except.bind, ofFound, members, Json.Found.required, Json.Found.withDefault,
    List.lookup_cons, String.reduceBEq, User.readI64_whole, Subject.ofJson_toJson, Json.asText]
  rfl

theorem ofPayload_toJson (c : Claims) : ofPayload c.toJson = .ok c := by
  have hsubject : c.members.required "sub" Json.asText = .ok c.subject.label := rfl
  have hpayload : ofPayload c.toJson = (do
      let found ← Json.find fields c.toJson
      let _ ← found.required "sub" Json.asText
      ofFound found) := rfl
  rw [hpayload, find_toJson]
  show (do let _ ← c.members.required "sub" Json.asText; ofFound c.members) = _
  rw [hsubject]
  exact c.ofFound_members

/-- **Claims are read back** from their JSON text. -/
theorem decodeText_toJson (c : Claims) :
    Json.decodeText ofPayload (Bytes.utf8 c.toJson.render) = .ok c := by
  rw [Json.decodeText_render c.written_toJson, ofPayload_toJson]

/-! ### What a payload tells -/

/-- Each claim stands in the only member of its name. -/
structure Told (members : List Json.Member) (c : Claims) : Prop where
  subject : ∃ label, Json.named "sub" members = [.entry (some "sub") (.text label)] ∧
    c.subject = Subject.ofLabel label
  id : Json.named "id" members = [.entry (some "id") (.whole c.id.toInt)]
  username : Json.named "username" members = [.entry (some "username") (.text c.username)] ∨
    Json.named "username" members = [] ∧ c.username = ""
  issuer : Json.named "iss" members = [.entry (some "iss") (.text c.issuer)]
  audience : Json.named "aud" members = [.entry (some "aud") (.text c.audience)]
  notBefore : Json.named "nbf" members = [.entry (some "nbf") (.whole c.notBefore.toInt)]
  expires : Json.named "exp" members = [.entry (some "exp") (.whole c.expires.toInt)]

section

variable {members : List Json.Member} {found : Json.Found} {name : String}

theorem named_of_required {α : Type} {decode : Json.Decoder α} {a : α}
    (hfind : Json.find fields (.object members) = .ok found)
    (hknown : name ∈ fields.map (·.name)) (h : found.required name decode = .ok a) :
    ∃ v, Json.named name members = [.entry (some name) v] ∧ decode v = .ok a := by
  obtain ⟨v, hv, hdecode⟩ := Json.lookup_of_required h
  refine ⟨v, ?_, hdecode⟩
  rw [Json.named_of_lookup hknown hfind, Json.foundAs, hv]
  rfl

theorem named_of_requiredText {s : String} (hfind : Json.find fields (.object members) = .ok found)
    (hknown : name ∈ fields.map (·.name)) (h : found.required name Json.asText = .ok s) :
    Json.named name members = [.entry (some name) (.text s)] := by
  obtain ⟨v, hnamed, hdecode⟩ := named_of_required hfind hknown h
  rw [hnamed, Json.text_of_asText hdecode]

theorem named_of_requiredI64 {i : Int64} (hfind : Json.find fields (.object members) = .ok found)
    (hknown : name ∈ fields.map (·.name)) (h : found.required name User.readI64 = .ok i) :
    Json.named name members = [.entry (some name) (.whole i.toInt)] := by
  obtain ⟨v, hnamed, hdecode⟩ := named_of_required hfind hknown h
  rw [hnamed, User.whole_of_readI64 hdecode]

theorem named_of_withDefault {s : String} (hfind : Json.find fields (.object members) = .ok found)
    (hknown : name ∈ fields.map (·.name)) (h : found.withDefault name Json.asText "" = .ok s) :
    Json.named name members = [.entry (some name) (.text s)] ∨
      Json.named name members = [] ∧ s = "" := by
  rw [Json.named_of_lookup hknown hfind, Json.foundAs]
  rcases Json.lookup_of_withDefault h with ⟨v, hv, hdecode⟩ | ⟨hnone, hdefault⟩
  · rw [hv, Json.text_of_asText hdecode]
    exact Or.inl rfl
  · rw [hnone]
    exact Or.inr ⟨rfl, hdefault⟩

theorem told_of_ofFound {label : String} {c : Claims}
    (hfind : Json.find fields (.object members) = .ok found)
    (hlabel : found.required "sub" Json.asText = .ok label) (h : ofFound found = .ok c) :
    c.Told members := by
  simp only [ofFound, bind_eq_ok_iff] at h
  obtain ⟨subject, hsubject, id, hid, username, husername, issuer, hissuer, audience, haudience,
    notBefore, hnotBefore, expires, hexpires, hclaims⟩ := h
  cases hclaims
  have hsub := named_of_requiredText hfind (by decide) hlabel
  refine {
    subject := ⟨label, hsub, ?_⟩
    id := named_of_requiredI64 hfind (by decide) hid
    username := named_of_withDefault hfind (by decide) husername
    issuer := named_of_requiredText hfind (by decide) hissuer
    audience := named_of_requiredText hfind (by decide) haudience
    notBefore := named_of_requiredI64 hfind (by decide) hnotBefore
    expires := named_of_requiredI64 hfind (by decide) hexpires }
  obtain ⟨v, hnamed, hdecode⟩ := named_of_required hfind (by decide) hsubject
  rw [hsub] at hnamed
  cases hnamed
  cases hdecode
  rfl

theorem told_of_ofPayload {v : Json} {c : Claims} (h : ofPayload v = .ok c) :
    ∃ members, v = .object members ∧ c.Told members := by
  cases v with
  | object members =>
    obtain ⟨found, hfind, h⟩ := bind_eq_ok_iff.mp h
    obtain ⟨label, hlabel, h⟩ := bind_eq_ok_iff.mp h
    exact ⟨members, rfl, told_of_ofFound hfind hlabel h⟩
  | _ => cases h

end

end Claims

end CompanyRegistry
