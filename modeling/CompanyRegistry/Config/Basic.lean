import CompanyRegistry.Event.Credentials
import CompanyRegistry.Event.Queue

/-!
# Configuration

Four sections, every field with a default, so that an empty configuration is one to develop with.
-/

namespace CompanyRegistry

namespace Config

/-- How much is logged. -/
structure General where
  logLevel : String := "info"
  deriving DecidableEq

/-- The address that is served, and what is served there. -/
structure Server where
  bind : String := "0.0.0.0:8080"
  tlsCert : String := ""
  tlsKey : String := ""
  tlsServerName : String := "localhost"
  jwtSecret : String := ""
  corsAllowOrigin : String := ""
  staticDir : String := "static"
  deriving DecidableEq

/-- The database; without an address, the store in memory. -/
structure Database where
  dsn : String := "postgres://localhost/app?sslmode=disable"
  automigrate : Bool := true
  maxOpenConnections : UInt32 := 10
  deriving DecidableEq

/-- The log of events and the queue before it; without brokers, none. -/
structure Kafka where
  brokers : List String := []
  topic : String := "companies"
  eventKeyTemplate : String := KeyTemplate.usual
  tls : Bool := false
  username : String := ""
  password : String := ""
  mechanism : String := "PLAIN"
  algorithm : String := "SHA512"
  queueCapacity : UInt64 := 1024
  backpressure : Backpressure := .reject
  maxInFlight : UInt64 := 16
  drainTimeoutSecs : UInt64 := 10
  messageTimeoutSecs : UInt64 := 30
  deriving DecidableEq

end Config

/-- A configuration. -/
structure Config where
  general : Config.General := {}
  server : Config.Server := {}
  database : Config.Database := {}
  kafka : Config.Kafka := {}
  deriving DecidableEq

namespace Config

/-- Connections are encrypted where both files are named. -/
def Server.tlsEnabled (s : Server) : Bool := s.tlsCert ≠ "" ∧ s.tlsKey ≠ ""

/-- The origin that pages of other sites are allowed from. -/
def Server.corsOrigin? (s : Server) : Option String :=
  if s.corsAllowOrigin = "" then none else some s.corsAllowOrigin

/-- The sizes of the queue. -/
def Kafka.queue (k : Kafka) : QueueConfig := ⟨k.queueCapacity.toNat, k.backpressure, k.maxInFlight.toNat⟩

/-- Milliseconds until a shutdown gives up. -/
def Kafka.drainTimeout (k : Kafka) : Nat := k.drainTimeoutSecs.toNat * 1000

/-- Milliseconds until a message gives up. -/
def Kafka.messageTimeout (k : Kafka) : Nat := k.messageTimeoutSecs.toNat * 1000

/-! ### The broker's client -/

/-- The credentials of the client. -/
def Kafka.credentials (k : Kafka) : Except MechanismError (Option Credentials) :=
  Credentials.ofSettings k.mechanism k.algorithm k.username k.password

/-- The name of a mechanism as the client knows it. -/
def mechanismName : Mechanism → String
  | .plain => "PLAIN"
  | .scram .sha256 => "SCRAM-SHA-256"
  | .scram .sha512 => "SCRAM-SHA-512"

/-- The protocol of the client: encrypted or not, with or without credentials. -/
def protocol (tls credentials : Bool) : String :=
  match tls, credentials with
  | false, false => "PLAINTEXT"
  | true, false => "SSL"
  | false, true => "SASL_PLAINTEXT"
  | true, true => "SASL_SSL"

/-- The settings of the client. -/
def Kafka.clientSettings (k : Kafka) (credentials : Option Credentials) : List (String × String) :=
  [("bootstrap.servers", ",".intercalate k.brokers),
   ("client.id", "companyhub"),
   ("partitioner", "murmur2_random"),
   ("message.timeout.ms", toString k.messageTimeout),
   ("security.protocol", protocol k.tls credentials.isSome)] ++
  match credentials with
  | none => []
  | some c =>
    [("sasl.mechanisms", mechanismName c.mechanism), ("sasl.username", c.username),
     ("sasl.password", c.password)]

/-- Why a publisher cannot be set up. -/
inductive SetupError where
  | mechanism (cause : MechanismError)
  | template (cause : KeyTemplate.Defect)
  deriving DecidableEq, Repr

/-- The text of a setup error. -/
def SetupError.message : SetupError → String
  | .mechanism e => e.message
  | .template d => "parse key template: " ++ d.message

/-- The publisher that a configuration gives: none without brokers, in which case nothing else is looked
at; credentials are checked before the template. -/
def Kafka.publisher (k : Kafka) : Except SetupError Publisher :=
  if k.brokers = [] then .ok { template := none }
  else match k.credentials with
    | .error e => .error (.mechanism e)
    | .ok _ =>
      match KeyTemplate.parse k.eventKeyTemplate with
      | .error d => .error (.template d)
      | .ok t => .ok { template := some t }

/-! ### JSON -/

/-- A number of 64 bits. -/
def readU64 : Json.Decoder UInt64 := fun v => (Json.asNat Decimal.maxU64 v).map UInt64.ofNat

/-- The fields of the section as JSON, in their declared order. -/
def Kafka.fields : List Json.Field := [
  .of "brokers" (Json.asList Json.asText), .of "topic" Json.asText,
  .of "event_key_template" Json.asText, .of "tls" Json.asBool, .of "username" Json.asText,
  .of "password" Json.asText, .of "mechanism" Json.asText, .of "algorithm" Json.asText,
  .of "queue_capacity" readU64, .of "backpressure" Backpressure.ofJson,
  .of "max_in_flight" readU64, .of "drain_timeout_secs" readU64,
  .of "message_timeout_secs" readU64]

/-- Reads the section from JSON; every field has its default. -/
def Kafka.ofJson : Json.Decoder Kafka := fun v => do
  let found ← Json.find Kafka.fields v
  let usual : Kafka := {}
  return {
    brokers := ← found.withDefault "brokers" (Json.asList Json.asText) usual.brokers
    topic := ← found.withDefault "topic" Json.asText usual.topic
    eventKeyTemplate := ← found.withDefault "event_key_template" Json.asText usual.eventKeyTemplate
    tls := ← found.withDefault "tls" Json.asBool usual.tls
    username := ← found.withDefault "username" Json.asText usual.username
    password := ← found.withDefault "password" Json.asText usual.password
    mechanism := ← found.withDefault "mechanism" Json.asText usual.mechanism
    algorithm := ← found.withDefault "algorithm" Json.asText usual.algorithm
    queueCapacity := ← found.withDefault "queue_capacity" readU64 usual.queueCapacity
    backpressure := ← found.withDefault "backpressure" Backpressure.ofJson usual.backpressure
    maxInFlight := ← found.withDefault "max_in_flight" readU64 usual.maxInFlight
    drainTimeoutSecs := ← found.withDefault "drain_timeout_secs" readU64 usual.drainTimeoutSecs
    messageTimeoutSecs := ← found.withDefault "message_timeout_secs" readU64 usual.messageTimeoutSecs }

end Config

end CompanyRegistry
