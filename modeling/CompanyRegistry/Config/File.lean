import CompanyRegistry.Config.Basic
import CompanyRegistry.Toml.Document
import CompanyRegistry.Toml.Printer

/-!
# The configuration file

`Config.parse?` takes from a TOML text the fields it names and leaves the others at their defaults; what
it does not know it passes over. `Config.render?` writes all fields, section by section; a number past
63 bits has no TOML form. What is rendered reads back as the same configuration.
-/

namespace CompanyRegistry.Config

/-- Reads a TOML value as an `α`. -/
abbrev Reader (α : Type) := Toml → Option α

/-- A string. -/
def readText : Reader String
  | .text s => some s
  | _ => none

/-- A truth value. -/
def readBool : Reader Bool
  | .bool b => some b
  | _ => none

/-- A natural number not above `most`. -/
def readNat (most : Nat) : Reader Nat
  | .integer i => if 0 ≤ i ∧ i ≤ most then some i.toNat else none
  | _ => none

/-- An array of strings. -/
def readTexts : Reader (List String)
  | .array items => items.mapM readText
  | _ => none

/-- Nothing in a value: what may stand behind a policy's name. -/
def isEmptyValue : Toml → Bool
  | .array [] => true
  | .table _ [] => true
  | .tables [] => true
  | _ => false

/-- A policy: its name, or a table whose first key is its name, with nothing behind it. -/
def readBackpressure : Reader Backpressure
  | .text s => Backpressure.ofLabel? s
  | .table origin ((k, v) :: r) =>
    if origin = .inline ∧ r ≠ [] then none
    else if isEmptyValue v then Backpressure.ofLabel? k else none
  | _ => none

/-- The entries of a section. An array gives them in their declared order. -/
def section? (keys : List String) : Toml → Option Toml.Entries
  | .table _ entries => some entries
  | .array items => some (keys.zip items)
  | .tables items => some (keys.zip (items.map (.table .header)))
  | .moment => some []
  | _ => none

/-- A field of a section, its default where it is absent. -/
def field (entries : Toml.Entries) (key : String) (read : Reader α) (default : α) : Option α :=
  match entries.lookup key with
  | none => some default
  | some v => read v

/-- A number of 32 bits. -/
def readU32 : Reader UInt32 := fun v => (readNat Decimal.maxU32 v).map UInt32.ofNat

/-- A number of 63 bits, which is as far as TOML goes. -/
def readU63 : Reader UInt64 := fun v => (readNat Decimal.maxU64 v).map UInt64.ofNat

/-- The general section. -/
def General.read : Reader General := fun v => do
  let es ← section? ["log_level"] v
  return { logLevel := ← field es "log_level" readText "info" }

/-- The keys of the server's section. -/
def Server.keys : List String :=
  ["bind", "tls_cert", "tls_key", "tls_server_name", "jwt_secret", "cors_allow_origin", "static_dir"]

/-- The server's section. -/
def Server.read : Reader Server := fun v => do
  let es ← section? Server.keys v
  let usual : Server := {}
  return {
    bind := ← field es "bind" readText usual.bind
    tlsCert := ← field es "tls_cert" readText usual.tlsCert
    tlsKey := ← field es "tls_key" readText usual.tlsKey
    tlsServerName := ← field es "tls_server_name" readText usual.tlsServerName
    jwtSecret := ← field es "jwt_secret" readText usual.jwtSecret
    corsAllowOrigin := ← field es "cors_allow_origin" readText usual.corsAllowOrigin
    staticDir := ← field es "static_dir" readText usual.staticDir }

/-- The database's section. -/
def Database.read : Reader Database := fun v => do
  let es ← section? ["dsn", "automigrate", "max_open_connections"] v
  let usual : Database := {}
  return {
    dsn := ← field es "dsn" readText usual.dsn
    automigrate := ← field es "automigrate" readBool usual.automigrate
    maxOpenConnections := ← field es "max_open_connections" readU32 usual.maxOpenConnections }

/-- The keys of the broker's section. -/
def Kafka.keys : List String :=
  ["brokers", "topic", "event_key_template", "tls", "username", "password", "mechanism", "algorithm",
   "queue_capacity", "backpressure", "max_in_flight", "drain_timeout_secs", "message_timeout_secs"]

/-- The broker's section. -/
def Kafka.read : Reader Kafka := fun v => do
  let es ← section? Kafka.keys v
  let usual : Kafka := {}
  return {
    brokers := ← field es "brokers" readTexts usual.brokers
    topic := ← field es "topic" readText usual.topic
    eventKeyTemplate := ← field es "event_key_template" readText usual.eventKeyTemplate
    tls := ← field es "tls" readBool usual.tls
    username := ← field es "username" readText usual.username
    password := ← field es "password" readText usual.password
    mechanism := ← field es "mechanism" readText usual.mechanism
    algorithm := ← field es "algorithm" readText usual.algorithm
    queueCapacity := ← field es "queue_capacity" readU63 usual.queueCapacity
    backpressure := ← field es "backpressure" readBackpressure usual.backpressure
    maxInFlight := ← field es "max_in_flight" readU63 usual.maxInFlight
    drainTimeoutSecs := ← field es "drain_timeout_secs" readU63 usual.drainTimeoutSecs
    messageTimeoutSecs := ← field es "message_timeout_secs" readU63 usual.messageTimeoutSecs }

/-- The configuration that the tables of a document give. -/
def ofEntries? (es : Toml.Entries) : Option Config := do
  return {
    general := ← field es "general" General.read {}
    server := ← field es "external_api" Server.read {}
    database := ← field es "postgresql" Database.read {}
    kafka := ← field es "kafka" Kafka.read {} }

/-- Reads a configuration. -/
def parse? (s : String) : Option Config := (Toml.parse? s).bind ofEntries?

/-! ### Writing -/

/-- The line of a string. -/
def textLine (key value : String) : List Char := Toml.line key (Toml.renderText value)

/-- The line of a truth value. -/
def boolLine (key : String) (value : Bool) : List Char := Toml.line key (Toml.renderBool value)

/-- The line of a number. -/
def natLine (key : String) (value : Nat) : List Char := Toml.line key (Decimal.digits value)

/-- The general section. -/
def General.render (g : General) : List Char :=
  Toml.headerLine "general" ++ textLine "log_level" g.logLevel

/-- The server's section. -/
def Server.render (s : Server) : List Char :=
  Toml.headerLine "external_api" ++ textLine "bind" s.bind ++ textLine "tls_cert" s.tlsCert ++
  textLine "tls_key" s.tlsKey ++ textLine "tls_server_name" s.tlsServerName ++
  textLine "jwt_secret" s.jwtSecret ++ textLine "cors_allow_origin" s.corsAllowOrigin ++
  textLine "static_dir" s.staticDir

/-- The database's section. -/
def Database.render (d : Database) : List Char :=
  Toml.headerLine "postgresql" ++ textLine "dsn" d.dsn ++ boolLine "automigrate" d.automigrate ++
  natLine "max_open_connections" d.maxOpenConnections.toNat

/-- The broker's section. -/
def Kafka.render (k : Kafka) : List Char :=
  Toml.headerLine "kafka" ++ Toml.line "brokers" (Toml.renderTexts k.brokers) ++
  textLine "topic" k.topic ++ textLine "event_key_template" k.eventKeyTemplate ++
  boolLine "tls" k.tls ++ textLine "username" k.username ++ textLine "password" k.password ++
  textLine "mechanism" k.mechanism ++ textLine "algorithm" k.algorithm ++
  natLine "queue_capacity" k.queueCapacity.toNat ++
  textLine "backpressure" k.backpressure.label ++
  natLine "max_in_flight" k.maxInFlight.toNat ++
  natLine "drain_timeout_secs" k.drainTimeoutSecs.toNat ++
  natLine "message_timeout_secs" k.messageTimeoutSecs.toNat

/-- The text of a configuration, section by section. -/
def renderChars (c : Config) : List Char :=
  c.general.render ++ '\n' :: c.server.render ++ '\n' :: c.database.render ++ '\n' :: c.kafka.render

/-- Whether all numbers have a TOML form. -/
def isRenderable (c : Config) : Bool :=
  [c.kafka.queueCapacity, c.kafka.maxInFlight, c.kafka.drainTimeoutSecs,
   c.kafka.messageTimeoutSecs].all fun n => n.toNat < Nat.pow 2 63

/-- The text of a configuration, if all its numbers have a TOML form. -/
def render? (c : Config) : Option String :=
  if c.isRenderable then some (String.ofList c.renderChars) else none

/-! ### Loading -/

/-- Why a configuration cannot be loaded. -/
inductive LoadError where
  | read (path cause : String)
  | parse
  deriving DecidableEq, Repr

/-- The text of a load error. -/
def LoadError.message : LoadError → String
  | .read path cause => "read config file '" ++ path ++ "': " ++ cause
  | .parse => "parse config: TOML parse error"

/-- What the system says of a file that is not there. -/
def noSuchFile : String := "No such file or directory (os error 2)"

/-- Reads a configuration from the text of a file, if the file is there. -/
def load (path : String) (text : Option String) : Except LoadError Config :=
  match text with
  | none => .error (.read path noSuchFile)
  | some s =>
    match parse? s with
    | some c => .ok c
    | none => .error .parse

end CompanyRegistry.Config
