import CompanyRegistry.Event.Basic
import CompanyRegistry.Proofs.Company.Spellings
import CompanyRegistry.Proofs.Json.Decoding
import CompanyRegistry.Proofs.Json.RoundTrip
import CompanyRegistry.Proofs.Time.Instants

/-!
# Company records, read back

A record is read back from its JSON text (`Company.decodeText_jsonText`), and so is each thing in it that is
written as a text of its own: an identifier (`Id.ofText?_text`), a legal form (`Kind.ofJson_toJson`), an
instant. The payload of an event is such a text, so whoever reads the log gets the record that was written
(`events_are_read_back`).
-/

namespace CompanyRegistry.Company

theorem Kind.ofLabel?_label (k : Kind) : Kind.ofLabel? k.label = some k := by
  cases k <;> decide

theorem Kind.ofJson_toJson (k : Kind) : Kind.ofJson k.toJson = .ok k :=
  Json.asVariant_text k.ofLabel?_label

theorem readU32_whole (n : UInt32) : readU32 (.whole n.toNat) = .ok n := by
  have hmost : n.toNat ≤ Decimal.maxU32 := Nat.le_sub_one_of_lt n.toNat_lt
  rw [readU32, Json.asNat_whole hmost]
  exact congrArg Except.ok UInt32.ofNat_toNat

theorem readId_text (i : Id) : readId (.text i.text) = .ok i := Json.asParsed_text i.ofText?_text

theorem readInstant_text (t : Instant) : readInstant (.text t.text) = .ok t :=
  Json.asParsed_text t.parse?_text

/-- The members of the JSON form, by name. -/
theorem find_toJson (c : Company) : Json.find fields c.toJson = .ok [
    ("updated_at", .text c.updatedAt.text),
    ("created_at", .text c.createdAt.text),
    ("kind", c.kind.toJson),
    ("registered", .bool c.registered),
    ("employees_count", .whole c.employees.toNat),
    ("description", .text c.description),
    ("name", .text c.name),
    ("id", .text c.id.text)] := by
  apply Json.find_record
  · show (fields.map (·.name)).Nodup
    decide
  · intro f hf
    simp only [List.mem_cons, List.not_mem_nil, or_false] at hf
    rcases hf with rfl | rfl | rfl | rfl | rfl | rfl | rfl | rfl
    · exact ⟨_, rfl, Json.Field.check_of (readId_text c.id)⟩
    · exact ⟨_, rfl, rfl⟩
    · exact ⟨_, rfl, rfl⟩
    · exact ⟨_, rfl, Json.Field.check_of (readU32_whole c.employees)⟩
    · exact ⟨_, rfl, rfl⟩
    · exact ⟨_, rfl, Json.Field.check_of c.kind.ofJson_toJson⟩
    · exact ⟨_, rfl, Json.Field.check_of (readInstant_text c.createdAt)⟩
    · exact ⟨_, rfl, Json.Field.check_of (readInstant_text c.updatedAt)⟩

theorem written_toJson (c : Company) : Json.Written c.toJson := by
  have hn := c.employees.toNat_lt
  rw [toJson, Json.written_record_iff]
  intro f hf
  simp only [List.mem_cons, List.not_mem_nil, or_false] at hf
  rcases hf with rfl | rfl | rfl | rfl | rfl | rfl | rfl | rfl
  · trivial
  · trivial
  · trivial
  · exact Json.written_whole (by omega)
  · trivial
  · trivial
  · trivial
  · trivial

theorem ofJson_toJson (c : Company) : ofJson c.toJson = .ok c := by
  rw [ofJson, find_toJson]
  simp only [bind, Except.bind, Json.Found.required, List.lookup_cons, String.reduceBEq, readId_text,
    readInstant_text, readU32_whole, Kind.ofJson_toJson, Json.asText, Json.asBool]
  rfl

/-- **A record is read back** from its JSON text. -/
theorem decodeText_jsonText (c : Company) :
    Json.decodeText ofJson (Bytes.utf8 c.jsonText) = .ok c := by
  rw [jsonText, Json.decodeText_render c.written_toJson, ofJson_toJson]

theorem read_jsonText (c : Company) : Json.read (Bytes.utf8 c.jsonText) = (c.toJson, []) :=
  Json.read_render c.written_toJson

theorem payload_ofCompany (kind : EventKind) (c : Company) :
    (Event.ofCompany kind c).payload = Bytes.utf8 c.jsonText := by
  rw [Event.ofCompany]

/-- **The payload of an event is the JSON text of its company**, and that text says everything about the
company: it is one whole value, it is read back as that record, and no other record has it. -/
theorem events_are_read_back (c : Company) (kind : EventKind) :
    Bytes.ofUtf8? (Event.ofCompany kind c).payload = some c.jsonText ∧
    Json.read (Event.ofCompany kind c).payload = (c.toJson, []) ∧
    Json.decodeText ofJson (Bytes.utf8 c.jsonText) = .ok c ∧
    Json.decodeText ofJson (Event.ofCompany kind c).payload = .ok c ∧
    ∀ other : Company, other.jsonText = c.jsonText → other = c := by
  have hdecode := c.decodeText_jsonText
  rw [payload_ofCompany]
  refine ⟨Bytes.ofUtf8?_utf8 c.jsonText, c.read_jsonText, hdecode, hdecode, ?_⟩
  intro other htext
  have hother := other.decodeText_jsonText
  rw [htext, hdecode] at hother
  exact (Except.ok.inj hother).symm

-- Control characters and quotes, a leap second, a year of five digits and a fraction of nine.
example :
    jsonText {
      id := ⟨List.replicate 16 0xAB, rfl⟩, name := "a\"\\\n\x07é", description := "", employees := 4294967295
      registered := true, kind := .nonProfit
      createdAt := ⟨⟨10000, 2, 29, by decide⟩, 86399, 1500000000, by decide⟩
      updatedAt := ⟨⟨-5, 1, 1, by decide⟩, 0, 1, by decide⟩ } =
    "\x7b\"id\":\"abababab-abab-abab-abab-abababababab\",\"name\":\"a\\\"\\\\\\n\\u0007é\"," ++
      "\"description\":\"\",\"employees_count\":4294967295,\"registered\":true,\"kind\":\"non_profit\"," ++
      "\"created_at\":\"+10000-02-29T23:59:60.500Z\",\"updated_at\":\"-0005-01-01T00:00:00.000000001Z\"\x7d" := by
  decide +kernel

end CompanyRegistry.Company
