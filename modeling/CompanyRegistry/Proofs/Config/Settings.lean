import CompanyRegistry.Config.File
import CompanyRegistry.Proofs.Toml.Tables

/-!
# What a configuration file settles

A configuration is a table of settings (`Config.sections`): each section with its keys and the value of
each. `Names` says that a document names a key of a section, and `Shows` that a TOML value is one of a
setting. A configuration that is read from a document follows it (`sections_follow`): what the document
names has the value it shows there, and everything else is as it is in the configuration of an empty
document. Since a key stands in a document once at most, this settles every field.
-/

namespace CompanyRegistry.Config

open Toml (ProperTable)

/-! ### Settings -/

/-- The value of a field. -/
inductive Setting
  | text (s : String)
  | bool (b : Bool)
  | number (n : Nat)
  | texts (items : List String)
  | policy (b : Backpressure)

/-- The fields of a section under their keys. -/
abbrev Settings := List (String × Setting)

def General.settings (g : General) : Settings := [("log_level", .text g.logLevel)]

def Server.settings (s : Server) : Settings :=
  [("bind", .text s.bind), ("tls_cert", .text s.tlsCert), ("tls_key", .text s.tlsKey),
   ("tls_server_name", .text s.tlsServerName), ("jwt_secret", .text s.jwtSecret),
   ("cors_allow_origin", .text s.corsAllowOrigin), ("static_dir", .text s.staticDir)]

def Database.settings (d : Database) : Settings :=
  [("dsn", .text d.dsn), ("automigrate", .bool d.automigrate),
   ("max_open_connections", .number d.maxOpenConnections.toNat)]

def Kafka.settings (k : Kafka) : Settings :=
  [("brokers", .texts k.brokers), ("topic", .text k.topic),
   ("event_key_template", .text k.eventKeyTemplate), ("tls", .bool k.tls),
   ("username", .text k.username), ("password", .text k.password), ("mechanism", .text k.mechanism),
   ("algorithm", .text k.algorithm), ("queue_capacity", .number k.queueCapacity.toNat),
   ("backpressure", .policy k.backpressure), ("max_in_flight", .number k.maxInFlight.toNat),
   ("drain_timeout_secs", .number k.drainTimeoutSecs.toNat),
   ("message_timeout_secs", .number k.messageTimeoutSecs.toNat)]

/-- All fields of a configuration, section by section. -/
def sections (c : Config) : List (String × Settings) :=
  [("general", c.general.settings), ("external_api", c.server.settings),
   ("postgresql", c.database.settings), ("kafka", c.kafka.settings)]

/-! ### What a document says -/

/-- A TOML value is that of a setting. A policy is written by its name, or as a table in which nothing
stands under its name. -/
inductive Shows : Toml → Setting → Prop
  | text (s : String) : Shows (.text s) (.text s)
  | bool (b : Bool) : Shows (.bool b) (.bool b)
  | number (n : Nat) : Shows (.integer n) (.number n)
  | texts (items : List String) : Shows (.array (items.map .text)) (.texts items)
  | policy (b : Backpressure) : Shows (.text b.label) (.policy b)
  | variant {origin : Toml.Origin} {v : Toml} {rest : Toml.Entries} (b : Backpressure)
      (h : isEmptyValue v = true) : Shows (.table origin ((b.label, v) :: rest)) (.policy b)

/-- A document names a key of a section, which is a table, or an array of values in the order of the
section's keys. -/
inductive Names (document : Toml.Entries) (name : String) (keys : List String) (key : String)
    (v : Toml) : Prop
  | table {origin : Toml.Origin} {entries : Toml.Entries}
      (hname : (name, .table origin entries) ∈ document) (hkey : (key, v) ∈ entries)
  | array {items : List Toml} (hname : (name, .array items) ∈ document)
      (hkey : (key, v) ∈ keys.zip items)
  | tables {items : List Toml.Entries} (hname : (name, .tables items) ∈ document)
      (hkey : (key, v) ∈ keys.zip (items.map (.table .header)))

/-- A section follows a document: what is named there has the value it shows, the rest is as usual. -/
def Follows (document : Toml.Entries) (name : String) (now usual : Settings) : Prop :=
  ∀ key x, (key, x) ∈ now →
    (∀ v, Names document name (now.map (·.1)) key v → Shows v x) ∧
    ((∀ v, ¬ Names document name (now.map (·.1)) key v) → (key, x) ∈ usual)

/-! ### Entries -/

theorem lookup_eq_some_iff {entries : Toml.Entries} (hkeys : (entries.map (·.1)).Nodup) {key : String}
    {v : Toml} : entries.lookup key = some v ↔ (key, v) ∈ entries := by
  induction entries with
  | nil => simp
  | cons p entries ih =>
    obtain ⟨k, w⟩ := p
    obtain ⟨hnew, hmore⟩ := List.nodup_cons.mp hkeys
    by_cases hk : key = k
    · subst hk
      have hother : (key, v) ∉ entries := fun hmem => hnew (List.mem_map.mpr ⟨_, hmem, rfl⟩)
      simp [hother, eq_comm]
    · have hne : (key == k) = false := beq_eq_false_iff_ne.mpr hk
      simp [List.lookup_cons, hne, hk, ih hmore]

theorem not_mem_of_lookup {entries : Toml.Entries} {key : String} (h : entries.lookup key = none)
    (v : Toml) : (key, v) ∉ entries := by
  intro hmem
  have hne := List.lookup_eq_none_iff.mp h (key, v) hmem
  simp at hne

theorem keys_zip_sublist (keys : List String) (items : List Toml) :
    ((keys.zip items).map (·.1)).Sublist keys := by
  induction keys generalizing items with
  | nil => simp
  | cons key keys ih =>
    cases items with
    | nil => simp
    | cons v items => exact (ih items).cons_cons key

theorem section?_proper {keys : List String} {v : Toml} {entries : Toml.Entries} (hkeys : keys.Nodup)
    (hv : v.Proper) (h : section? keys v = some entries) : ProperTable entries := by
  have hzip : ∀ items : List Toml, (∀ w ∈ items, w.Proper) → ProperTable (keys.zip items) := by
    intro items hitems
    exact ⟨hkeys.sublist (keys_zip_sublist keys items),
      fun p hp => hitems p.2 (List.of_mem_zip hp).2⟩
  cases v with
  | table origin entries =>
    cases h
    exact Toml.proper_table_iff.mp hv
  | array items =>
    cases h
    cases hv with
    | array hitems => exact hzip items hitems
  | tables items =>
    cases h
    refine hzip _ ?_
    intro w hw
    obtain ⟨t, ht, rfl⟩ := List.mem_map.mp hw
    exact Toml.proper_table_iff.mpr (Toml.proper_tables_iff.mp hv t ht)
  | moment =>
    cases h
    exact .nil
  | text | integer | float | bool => cases h

theorem names_iff {document : Toml.Entries} {name : String} {keys : List String} {key : String}
    {v : Toml} : Names document name keys key v ↔
      ∃ w entries, (name, w) ∈ document ∧ section? keys w = some entries ∧ (key, v) ∈ entries := by
  constructor
  · rintro (⟨hname, hkey⟩ | ⟨hname, hkey⟩ | ⟨hname, hkey⟩)
    · exact ⟨_, _, hname, rfl, hkey⟩
    · exact ⟨_, _, hname, rfl, hkey⟩
    · exact ⟨_, _, hname, rfl, hkey⟩
  · rintro ⟨w, entries, hname, hsection, hkey⟩
    cases w with
    | table origin inner =>
      cases hsection
      exact .table hname hkey
    | array items =>
      cases hsection
      exact .array hname hkey
    | tables items =>
      cases hsection
      exact .tables hname hkey
    | moment =>
      cases hsection
      cases hkey
    | text | integer | float | bool => cases hsection

/-! ### Readers -/

/-- A reader reads what is shown. -/
def Reads {α : Type} (read : Reader α) (setting : α → Setting) : Prop :=
  ∀ v a, read v = some a → Shows v (setting a)

theorem reads_text : Reads readText .text := by
  intro v s h
  cases v with
  | text t =>
    cases h
    exact .text s
  | _ => cases h

theorem reads_bool : Reads readBool .bool := by
  intro v b h
  cases v with
  | bool t =>
    cases h
    exact .bool b
  | _ => cases h

theorem mapM_readText {items : List Toml} {texts : List String} (h : items.mapM readText = some texts) :
    items = texts.map .text := by
  induction items generalizing texts with
  | nil =>
    cases h
    rfl
  | cons v items ih =>
    simp only [List.mapM_cons, Option.bind_eq_bind, Option.bind_eq_some_iff, Option.pure_def,
      Option.some.injEq] at h
    obtain ⟨s, hs, more, hmore, rfl⟩ := h
    cases reads_text v s hs with
    | text => rw [List.map_cons, ← ih hmore]

theorem reads_texts : Reads readTexts .texts := by
  intro v texts h
  cases v with
  | array items =>
    rw [mapM_readText h]
    exact .texts texts
  | _ => cases h

theorem readNat_eq_some {most n : Nat} {v : Toml} (h : readNat most v = some n) :
    v = .integer n ∧ n ≤ most := by
  cases v with
  | integer i =>
    rw [readNat] at h
    split_ifs at h with hi
    cases h
    have hcast : (i.toNat : Int) = i := Int.toNat_of_nonneg hi.1
    exact ⟨by rw [hcast], by omega⟩
  | _ => cases h

theorem reads_u32 : Reads readU32 fun n => .number n.toNat := by
  intro v n h
  obtain ⟨m, hm, rfl⟩ := Option.map_eq_some_iff.mp h
  obtain ⟨rfl, hmost⟩ := readNat_eq_some hm
  have hvalue : (UInt32.ofNat m).toNat = m := UInt32.toNat_ofNat_of_lt' (Nat.lt_succ_of_le hmost)
  dsimp only
  rw [hvalue]
  exact .number m

theorem reads_u63 : Reads readU63 fun n => .number n.toNat := by
  intro v n h
  obtain ⟨m, hm, rfl⟩ := Option.map_eq_some_iff.mp h
  obtain ⟨rfl, hmost⟩ := readNat_eq_some hm
  have hvalue : (UInt64.ofNat m).toNat = m := UInt64.toNat_ofNat_of_lt' (Nat.lt_succ_of_le hmost)
  dsimp only
  rw [hvalue]
  exact .number m

theorem label_of_ofLabel? {s : String} {b : Backpressure} (h : Backpressure.ofLabel? s = some b) :
    b.label = s := by
  simpa using List.find?_some h

theorem reads_backpressure : Reads readBackpressure .policy := by
  intro v b h
  cases v with
  | text s =>
    rw [← label_of_ofLabel? h]
    exact .policy b
  | table origin entries =>
    cases entries with
    | nil => cases h
    | cons p rest =>
      obtain ⟨k, w⟩ := p
      rw [readBackpressure] at h
      split_ifs at h with hmany hempty
      rw [← label_of_ofLabel? h]
      exact .variant b hempty
  | _ => cases h

/-! ### Fields -/

/-- A field, with its key, follows the entries of its section. -/
structure RowFollows (entries : Toml.Entries) (now usual : String × Setting) : Prop where
  key : now.1 = usual.1
  named : ∀ v, (now.1, v) ∈ entries → Shows v now.2
  absent : (∀ v, (now.1, v) ∉ entries) → now.2 = usual.2

theorem field_follows {α : Type} {read : Reader α} {setting : α → Setting}
    (hread : Reads read setting) {entries : Toml.Entries} (hentries : ProperTable entries)
    {key : String} {usual a : α} (h : field entries key read usual = some a) :
    RowFollows entries (key, setting a) (key, setting usual) := by
  unfold field at h
  cases hlookup : entries.lookup key with
  | none =>
    rw [hlookup] at h
    cases h
    exact ⟨rfl, fun v hv => absurd hv (not_mem_of_lookup hlookup v), fun _ => rfl⟩
  | some v =>
    rw [hlookup] at h
    have hmem := (lookup_eq_some_iff hentries.keys).mp hlookup
    refine ⟨rfl, ?_, fun hnone => absurd hmem (hnone v)⟩
    intro w hw
    have hsame : v = w :=
      Option.some.inj (hlookup.symm.trans ((lookup_eq_some_iff hentries.keys).mpr hw))
    rw [← hsame]
    exact hread v a h

/-- A section is read as one that follows its entries. -/
def ReadsSection {α : Type} (read : Reader α) (settings : α → Settings) (usual : α) : Prop :=
  ∀ v a, v.Proper → read v = some a →
    ∃ entries, section? ((settings a).map (·.1)) v = some entries ∧
      List.Forall₂ (RowFollows entries) (settings a) (settings usual)

theorem General.readsSection : ReadsSection General.read General.settings {} := by
  intro v g hv h
  obtain ⟨entries, hentries, h⟩ := Option.bind_eq_some_iff.mp h
  obtain ⟨level, hlevel, h⟩ := Option.bind_eq_some_iff.mp h
  cases h
  have hproper := section?_proper (by decide) hv hentries
  exact ⟨entries, hentries, .cons (field_follows reads_text hproper hlevel) .nil⟩

theorem Server.readsSection : ReadsSection Server.read Server.settings {} := by
  intro v s hv h
  simp only [Server.read, Option.bind_eq_bind, Option.bind_eq_some_iff, Option.pure_def,
    Option.some.injEq] at h
  obtain ⟨entries, hentries, bind, hbind, cert, hcert, key, hkey, name, hname, secret, hsecret,
    origin, horigin, dir, hdir, rfl⟩ := h
  have hproper := section?_proper (by decide) hv hentries
  exact ⟨entries, hentries,
    .cons (field_follows reads_text hproper hbind) <|
    .cons (field_follows reads_text hproper hcert) <|
    .cons (field_follows reads_text hproper hkey) <|
    .cons (field_follows reads_text hproper hname) <|
    .cons (field_follows reads_text hproper hsecret) <|
    .cons (field_follows reads_text hproper horigin) <|
    .cons (field_follows reads_text hproper hdir) .nil⟩

theorem Database.readsSection : ReadsSection Database.read Database.settings {} := by
  intro v d hv h
  simp only [Database.read, Option.bind_eq_bind, Option.bind_eq_some_iff, Option.pure_def,
    Option.some.injEq] at h
  obtain ⟨entries, hentries, dsn, hdsn, migrate, hmigrate, most, hmost, rfl⟩ := h
  have hproper := section?_proper (by decide) hv hentries
  exact ⟨entries, hentries,
    .cons (field_follows reads_text hproper hdsn) <|
    .cons (field_follows reads_bool hproper hmigrate) <|
    .cons (field_follows reads_u32 hproper hmost) .nil⟩

theorem Kafka.readsSection : ReadsSection Kafka.read Kafka.settings {} := by
  intro v k hv h
  obtain ⟨entries, hentries, h⟩ := Option.bind_eq_some_iff.mp h
  obtain ⟨brokers, hbrokers, h⟩ := Option.bind_eq_some_iff.mp h
  obtain ⟨topic, htopic, h⟩ := Option.bind_eq_some_iff.mp h
  obtain ⟨template, htemplate, h⟩ := Option.bind_eq_some_iff.mp h
  obtain ⟨tls, htls, h⟩ := Option.bind_eq_some_iff.mp h
  obtain ⟨username, husername, h⟩ := Option.bind_eq_some_iff.mp h
  obtain ⟨password, hpassword, h⟩ := Option.bind_eq_some_iff.mp h
  obtain ⟨mechanism, hmechanism, h⟩ := Option.bind_eq_some_iff.mp h
  obtain ⟨algorithm, halgorithm, h⟩ := Option.bind_eq_some_iff.mp h
  obtain ⟨capacity, hcapacity, h⟩ := Option.bind_eq_some_iff.mp h
  obtain ⟨policy, hpolicy, h⟩ := Option.bind_eq_some_iff.mp h
  obtain ⟨flights, hflights, h⟩ := Option.bind_eq_some_iff.mp h
  obtain ⟨drain, hdrain, h⟩ := Option.bind_eq_some_iff.mp h
  obtain ⟨timeout, htimeout, h⟩ := Option.bind_eq_some_iff.mp h
  cases h
  have hproper := section?_proper (by decide) hv hentries
  exact ⟨entries, hentries,
    .cons (field_follows reads_texts hproper hbrokers) <|
    .cons (field_follows reads_text hproper htopic) <|
    .cons (field_follows reads_text hproper htemplate) <|
    .cons (field_follows reads_bool hproper htls) <|
    .cons (field_follows reads_text hproper husername) <|
    .cons (field_follows reads_text hproper hpassword) <|
    .cons (field_follows reads_text hproper hmechanism) <|
    .cons (field_follows reads_text hproper halgorithm) <|
    .cons (field_follows reads_u63 hproper hcapacity) <|
    .cons (field_follows reads_backpressure hproper hpolicy) <|
    .cons (field_follows reads_u63 hproper hflights) <|
    .cons (field_follows reads_u63 hproper hdrain) <|
    .cons (field_follows reads_u63 hproper htimeout) .nil⟩

/-! ### Sections -/

theorem usual_of_forall₂ {entries : Toml.Entries} {now usual : Settings}
    (h : List.Forall₂ (RowFollows entries) now usual) {p : String × Setting} (hp : p ∈ now) :
    ∃ q ∈ usual, RowFollows entries p q := by
  induction h with
  | nil => cases hp
  | cons hrow _ ih =>
    rcases List.mem_cons.mp hp with rfl | hmore
    · exact ⟨_, List.mem_cons_self, hrow⟩
    · obtain ⟨q, hq, hfollows⟩ := ih hmore
      exact ⟨q, List.mem_cons_of_mem _ hq, hfollows⟩

variable {document : Toml.Entries} {name : String}

theorem section_follows {α : Type} {read : Reader α} {settings : α → Settings} {usual a : α}
    (hread : ReadsSection read settings usual) (hdocument : ProperTable document)
    (h : field document name read usual = some a) :
    Follows document name (settings a) (settings usual) := by
  intro key x hx
  simp only [names_iff]
  unfold field at h
  cases hlookup : document.lookup name with
  | none =>
    rw [hlookup] at h
    cases h
    refine ⟨?_, fun _ => hx⟩
    rintro v ⟨w, entries, hname, -⟩
    exact absurd hname (not_mem_of_lookup hlookup w)
  | some w =>
    rw [hlookup] at h
    have hmem := (lookup_eq_some_iff hdocument.keys).mp hlookup
    obtain ⟨entries, hsection, hrows⟩ := hread w a (hdocument.values _ hmem) h
    obtain ⟨⟨key', d⟩, hd, hrow⟩ := usual_of_forall₂ hrows hx
    obtain ⟨hkey, hnamed, habsent⟩ := hrow
    constructor
    · rintro v ⟨w', entries', hname, hsection', hv⟩
      have hw : w = w' :=
        Option.some.inj (hlookup.symm.trans ((lookup_eq_some_iff hdocument.keys).mpr hname))
      subst hw
      cases hsection.symm.trans hsection'
      exact hnamed v hv
    · intro hnone
      have hx' : x = d := habsent fun v hv => hnone v ⟨w, entries, hmem, hsection, hv⟩
      rw [hx', show key = key' from hkey]
      exact hd

theorem ofEntries?_eq_some {c : Config} (h : ofEntries? document = some c) :
    field document "general" General.read {} = some c.general ∧
    field document "external_api" Server.read {} = some c.server ∧
    field document "postgresql" Database.read {} = some c.database ∧
    field document "kafka" Kafka.read {} = some c.kafka := by
  simp only [ofEntries?, Option.bind_eq_bind, Option.bind_eq_some_iff, Option.pure_def,
    Option.some.injEq] at h
  obtain ⟨general, hgeneral, server, hserver, database, hdatabase, kafka, hkafka, rfl⟩ := h
  exact ⟨hgeneral, hserver, hdatabase, hkafka⟩

/-- **A configuration follows the document that it is read from**, each section of it. -/
theorem sections_follow {c : Config} (hdocument : ProperTable document)
    (h : ofEntries? document = some c) {now : Settings} (hnow : (name, now) ∈ c.sections) :
    ∃ usual, (name, usual) ∈ ({} : Config).sections ∧ Follows document name now usual := by
  obtain ⟨hgeneral, hserver, hdatabase, hkafka⟩ := ofEntries?_eq_some h
  simp only [sections, List.mem_cons, Prod.mk.injEq, List.not_mem_nil, or_false] at hnow
  rcases hnow with ⟨rfl, rfl⟩ | ⟨rfl, rfl⟩ | ⟨rfl, rfl⟩ | ⟨rfl, rfl⟩
  · exact ⟨_, by simp [sections], section_follows General.readsSection hdocument hgeneral⟩
  · exact ⟨_, by simp [sections], section_follows Server.readsSection hdocument hserver⟩
  · exact ⟨_, by simp [sections], section_follows Database.readsSection hdocument hdatabase⟩
  · exact ⟨_, by simp [sections], section_follows Kafka.readsSection hdocument hkafka⟩

end CompanyRegistry.Config
