import CompanyRegistry.Proofs.Config.Settings
import CompanyRegistry.Proofs.Toml.Documents

/-!
# Configuration files, read back

What is printed of a configuration is a document with a line for each setting (`renderChars_eq`), and each
setting is printed so that it is read as a value that shows it (`Setting.reads`). So a configuration whose
numbers have a TOML form is read back from its own text (`parse?_renderChars`), whatever its strings and
its brokers are. A configuration that comes from a file has only such numbers, as the document had them
(`isRenderable_of_parse?`).
-/

namespace CompanyRegistry.Config

open Toml (ProperTable)

/-! ### What is printed -/

namespace Setting

/-- The text of a setting. -/
def chars : Setting → List Char
  | .text s => Toml.renderText s
  | .bool b => Toml.renderBool b
  | .number n => Decimal.digits n
  | .texts items => Toml.renderTexts items
  | .policy b => Toml.renderText b.label

/-- The TOML value that the text of a setting is read as. -/
def value : Setting → Toml
  | .text s => .text s
  | .bool b => .bool b
  | .number n => .integer n
  | .texts items => .array (items.map .text)
  | .policy b => .text b.label

/-- A number has a TOML form. -/
def Small : Setting → Prop
  | .number n => n < 2 ^ 63
  | _ => True

theorem reads (x : Setting) (h : x.Small) : Toml.ReadsAs 0 x.chars x.value := by
  cases x with
  | text s => exact Toml.readsAs_text 0 s
  | bool b => exact Toml.readsAs_bool 0 b
  | number n => exact Toml.readsAs_number 0 h
  | texts items => exact Toml.readsAs_texts items
  | policy b => exact Toml.readsAs_text 0 b.label

theorem head (x : Setting) : ∃ c r, x.chars = c :: r ∧ Toml.isSpace c = false := by
  have htext : ∀ s, ∃ c r, Toml.renderText s = c :: r ∧ Toml.isSpace c = false := by
    intro s
    obtain ⟨c, r, hhead, hc, -⟩ := Toml.renderText_head s
    exact ⟨c, r, hhead, hc.1⟩
  cases x with
  | text s => exact htext s
  | bool b => cases b with
    | true => exact ⟨'t', _, rfl, by decide⟩
    | false => exact ⟨'f', _, rfl, by decide⟩
  | number n =>
    obtain ⟨d, r, hhead, hd⟩ := Toml.digits_append_head n []
    rw [List.append_nil] at hhead
    refine ⟨d, r, hhead, ?_⟩
    have hblank : d ≠ ' ' ∧ d ≠ '\t' := by
      constructor
      · rintro rfl
        cases hd
      · rintro rfl
        cases hd
    simp [Toml.isSpace, hblank]
  | texts items =>
    have hbracket : Toml.isSpace '[' = false := by decide
    rcases items with _ | ⟨s, _ | ⟨t, items⟩⟩
    · exact ⟨_, _, rfl, hbracket⟩
    · exact ⟨_, _, rfl, hbracket⟩
    · exact ⟨_, _, rfl, hbracket⟩
  | policy b => exact htext b.label

/-- The line of a setting. -/
def pair (p : String × Setting) : Toml.Pair := ⟨p.1, p.2.chars, p.2.value⟩

end Setting

/-- The lines of a section. -/
def sectionOf (p : String × Settings) : Toml.Section := ⟨p.1, p.2.map Setting.pair⟩

theorem General.render_eq (g : General) :
    (sectionOf ("general", g.settings)).chars = g.render := by
  simp [Toml.Section.chars, sectionOf, Setting.pair, Setting.chars, General.settings,
    General.render, textLine]

theorem Server.render_eq (s : Server) :
    (sectionOf ("external_api", s.settings)).chars = s.render := by
  simp [Toml.Section.chars, sectionOf, Setting.pair, Setting.chars, Server.settings, Server.render,
    textLine]

theorem Database.render_eq (d : Database) :
    (sectionOf ("postgresql", d.settings)).chars = d.render := by
  simp [Toml.Section.chars, sectionOf, Setting.pair, Setting.chars, Database.settings,
    Database.render, textLine, boolLine, natLine]

theorem Kafka.render_eq (k : Kafka) : (sectionOf ("kafka", k.settings)).chars = k.render := by
  simp [Toml.Section.chars, sectionOf, Setting.pair, Setting.chars, Kafka.settings, Kafka.render,
    textLine, boolLine, natLine]

theorem renderChars_eq (c : Config) : c.renderChars = Toml.document (c.sections.map sectionOf) := by
  have hlast : ∀ s, Toml.document [s] = s.chars := fun s => by
    simp [Toml.document, List.intercalate]
  simp only [sections, List.map_cons, List.map_nil, Toml.document_cons_cons, hlast,
    General.render_eq, Server.render_eq, Database.render_eq, Kafka.render_eq]
  simp [renderChars]

/-! ### Reading it back -/

/-- A configuration can be printed exactly if all its numbers have a TOML form. -/
theorem isRenderable_iff {c : Config} :
    c.isRenderable = true ↔ ∀ p ∈ c.sections, ∀ q ∈ p.2, q.2.Small := by
  have hconnections : c.database.maxOpenConnections.toNat < 2 ^ 63 :=
    Nat.lt_trans c.database.maxOpenConnections.toNat_lt (by decide)
  have hpow : Nat.pow 2 63 = 2 ^ 63 := rfl
  simp only [isRenderable, sections, General.settings, Server.settings, Database.settings,
    Kafka.settings, Setting.Small, List.forall_mem_cons, List.not_mem_nil, false_imp_iff,
    implies_true, hconnections, true_and, and_true, List.all_cons, List.all_nil, Bool.and_true,
    Bool.and_eq_true, decide_eq_true_eq, hpow]

/-- The sections, each with its keys. -/
def layout : List (String × List String) :=
  [("general", ["log_level"]), ("external_api", Server.keys),
   ("postgresql", ["dsn", "automigrate", "max_open_connections"]), ("kafka", Kafka.keys)]

theorem sections_layout (c : Config) : c.sections.map (fun p => (p.1, p.2.map (·.1))) = layout := rfl

theorem mem_layout {c : Config} {p : String × Settings} (hp : p ∈ c.sections) :
    (p.1, p.2.map (·.1)) ∈ layout := by
  rw [← sections_layout c]
  exact List.mem_map.mpr ⟨p, hp, rfl⟩

theorem layout_bare : ∀ p ∈ layout, Toml.Bare p.1 ∧ (∀ k ∈ p.2, Toml.Bare k) ∧ p.2.Nodup := by
  decide

theorem plain_sectionOf {c : Config} (h : c.isRenderable = true) {p : String × Settings}
    (hp : p ∈ c.sections) : (sectionOf p).Plain := by
  have hsmall := isRenderable_iff.mp h p hp
  obtain ⟨hname, hkeys, hdistinct⟩ := layout_bare _ (mem_layout hp)
  refine ⟨hname, ?_, ?_⟩
  · intro pair hpair
    obtain ⟨q, hq, rfl⟩ := List.mem_map.mp hpair
    exact ⟨hkeys q.1 (List.mem_map.mpr ⟨q, hq, rfl⟩), q.2.reads (hsmall q hq), q.2.head⟩
  · rw [sectionOf, List.map_map]
    exact hdistinct

/-- The table that the text of a section is read as. -/
def tableOf (settings : Settings) : Toml :=
  .table .header (settings.map fun q => (q.1, q.2.value))

/-- The tables that the text of a configuration is read as. -/
def tables (c : Config) : Toml.Entries := c.sections.map fun p => (p.1, tableOf p.2)

theorem parse?_tables {c : Config} (h : c.isRenderable = true) :
    Toml.parse? (String.ofList c.renderChars) = some c.tables := by
  have hplain : ∀ s ∈ c.sections.map sectionOf, s.Plain := by
    intro s hs
    obtain ⟨p, hp, rfl⟩ := List.mem_map.mp hs
    exact plain_sectionOf h hp
  have hnames : ((c.sections.map sectionOf).map (·.name)).Nodup := by
    show ["general", "external_api", "postgresql", "kafka"].Nodup
    decide
  rw [renderChars_eq, Toml.parse?_document hplain hnames, List.map_map]
  refine congrArg some (List.map_congr_left fun p hp => ?_)
  simp [Toml.Section.entry, Toml.entriesOf, sectionOf, Setting.pair, tableOf]

theorem readTexts_value (items : List String) :
    readTexts (.array (items.map .text)) = some items := by
  show (items.map Toml.text).mapM readText = some items
  induction items with
  | nil => rfl
  | cons s items ih =>
    rw [List.map_cons, List.mapM_cons, ih]
    rfl

theorem readNat_value {most n : Nat} (h : n ≤ most) : readNat most (.integer n) = some n := by
  rw [readNat, if_pos ⟨Int.natCast_nonneg n, by omega⟩, Int.toNat_natCast]

theorem readU32_value (n : UInt32) : readU32 (.integer n.toNat) = some n := by
  have hmost : n.toNat ≤ Decimal.maxU32 := Nat.le_of_lt_succ n.toNat_lt
  rw [readU32, readNat_value hmost, Option.map_some, UInt32.ofNat_toNat]

theorem readU63_value (n : UInt64) : readU63 (.integer n.toNat) = some n := by
  have hmost : n.toNat ≤ Decimal.maxU64 := Nat.le_of_lt_succ n.toNat_lt
  rw [readU63, readNat_value hmost, Option.map_some, UInt64.ofNat_toNat]

theorem readBackpressure_value (b : Backpressure) : readBackpressure (.text b.label) = some b := by
  cases b with
  | reject => decide
  | block => decide

theorem field_of_lookup {α : Type} {read : Reader α} {entries : Toml.Entries} {key : String}
    {v : Toml} {usual a : α} (hlookup : entries.lookup key = some v) (hread : read v = some a) :
    field entries key read usual = some a := by
  unfold field
  rw [hlookup]
  exact hread

theorem General.read_table (g : General) : General.read (tableOf g.settings) = some g := rfl

theorem Server.read_table (s : Server) : Server.read (tableOf s.settings) = some s := rfl

theorem Database.read_table (d : Database) : Database.read (tableOf d.settings) = some d := by
  refine bind_of_some rfl ?_
  refine bind_of_some (field_of_lookup rfl rfl) ?_
  refine bind_of_some (field_of_lookup rfl rfl) ?_
  exact bind_of_some (field_of_lookup rfl (readU32_value d.maxOpenConnections)) rfl

theorem Kafka.read_table (k : Kafka) : Kafka.read (tableOf k.settings) = some k := by
  refine bind_of_some rfl ?_
  refine bind_of_some (field_of_lookup rfl (readTexts_value k.brokers)) ?_
  refine bind_of_some (field_of_lookup rfl rfl) ?_
  refine bind_of_some (field_of_lookup rfl rfl) ?_
  refine bind_of_some (field_of_lookup rfl rfl) ?_
  refine bind_of_some (field_of_lookup rfl rfl) ?_
  refine bind_of_some (field_of_lookup rfl rfl) ?_
  refine bind_of_some (field_of_lookup rfl rfl) ?_
  refine bind_of_some (field_of_lookup rfl rfl) ?_
  refine bind_of_some (field_of_lookup rfl (readU63_value k.queueCapacity)) ?_
  refine bind_of_some (field_of_lookup rfl (readBackpressure_value k.backpressure)) ?_
  refine bind_of_some (field_of_lookup rfl (readU63_value k.maxInFlight)) ?_
  refine bind_of_some (field_of_lookup rfl (readU63_value k.drainTimeoutSecs)) ?_
  exact bind_of_some (field_of_lookup rfl (readU63_value k.messageTimeoutSecs)) rfl

theorem ofEntries?_tables (c : Config) : ofEntries? c.tables = some c := by
  refine bind_of_some (field_of_lookup rfl c.general.read_table) ?_
  refine bind_of_some (field_of_lookup rfl c.server.read_table) ?_
  refine bind_of_some (field_of_lookup rfl c.database.read_table) ?_
  exact bind_of_some (field_of_lookup rfl c.kafka.read_table) rfl

/-- The sections of a configuration leave none of its fields out. -/
theorem sections_injective {c c' : Config} (h : c.sections = c'.sections) : c = c' := by
  have htables : c.tables = c'.tables := by rw [tables, h, tables]
  have hread := ofEntries?_tables c
  rw [htables, ofEntries?_tables] at hread
  exact (Option.some.inj hread).symm

/-- **A configuration is read back from its text**, if its numbers have a TOML form. -/
theorem parse?_render {c : Config} (h : c.isRenderable = true) :
    ∃ printed, c.render? = some printed ∧ parse? printed = some c := by
  refine ⟨String.ofList c.renderChars, if_pos h, ?_⟩
  unfold parse?
  rw [parse?_tables h]
  exact ofEntries?_tables c

/-! ### What comes from a file can be printed -/

theorem small_of_shows {v : Toml} {x : Setting} (hv : v.Proper) (h : Shows v x) : x.Small := by
  cases h with
  | number n =>
    cases hv with
    | integer hn =>
      show n < 2 ^ 63
      omega
  | _ => trivial

theorem proper_of_names {document : Toml.Entries} {name key : String} {keys : List String} {v : Toml}
    (hdocument : ProperTable document) (hkeys : keys.Nodup)
    (h : Names document name keys key v) : v.Proper := by
  obtain ⟨w, entries, hname, hsection, hkey⟩ := names_iff.mp h
  exact (section?_proper hkeys (hdocument.values _ hname) hsection).values _ hkey

/-- Numbers of a document have a TOML form, and so have the usual ones. -/
theorem isRenderable_of_ofEntries? {document : Toml.Entries} {c : Config}
    (hdocument : ProperTable document) (h : ofEntries? document = some c) :
    c.isRenderable = true := by
  refine isRenderable_iff.mpr ?_
  intro p hp q hq
  obtain ⟨usual, husual, hfollows⟩ := sections_follow hdocument h hp
  obtain ⟨hnamed, habsent⟩ := hfollows q.1 q.2 hq
  by_cases hnames : ∃ v, Names document p.1 (p.2.map (·.1)) q.1 v
  · obtain ⟨v, hv⟩ := hnames
    obtain ⟨-, -, hkeys⟩ := layout_bare _ (mem_layout hp)
    exact small_of_shows (proper_of_names hdocument hkeys hv) (hnamed v hv)
  · have hdefault : ({} : Config).isRenderable = true := by decide
    exact isRenderable_iff.mp hdefault _ husual _ (habsent fun v hv => hnames ⟨v, hv⟩)

theorem isRenderable_of_parse? {s : String} {c : Config} (h : parse? s = some c) :
    c.isRenderable = true := by
  obtain ⟨document, hdocument, hc⟩ := Option.bind_eq_some_iff.mp h
  exact isRenderable_of_ofEntries? (Toml.proper_of_parse? hdocument) hc

end CompanyRegistry.Config
