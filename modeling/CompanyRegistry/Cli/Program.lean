import CompanyRegistry.Cli.Arguments
import CompanyRegistry.Port.Router
import CompanyRegistry.Port.Start
import CompanyRegistry.Store.Database

/-!
# The program

What the command does, given the files that it can read. It prints and exits, or it becomes a server.
Errors are told with what they prevented and what caused them, and end the program with code 1; wrong
usage ends it with code 2.
-/

namespace CompanyRegistry.Cli

/-- The program's name. -/
def programName : String := "companyhub"

/-- The program's version. -/
def programVersion : String := "0.1.0"

/-- What is left when the program has ended. -/
structure Result where
  code : Nat := 0
  out : String := ""
  err : String := ""
  deriving DecidableEq

/-- An error, from what failed to what caused it. -/
abbrev Causes := List String

/-- The end after an error. -/
def Result.failed (causes : Causes) : Result :=
  { code := 1, err := "error: " ++ ": ".intercalate causes ++ "\n" }

/-! ### Texts -/

/-- What a command does. -/
def Command.about : Command → String
  | .run => "Start the API server (default)"
  | .configFile => "Print the effective configuration as TOML"
  | .version => "Print the version"

/-- What `help` does. -/
def aboutHelp : String := "Print this message or the help of the given subcommand(s)"

/-- The lines of the two settings. -/
def settingLines : List String :=
  ["  -c, --config <CONFIG>        Path to the configuration file (default: ./config.toml when present)",
   "      --log-level <LOG_LEVEL>  Overrides `general.log_level` (trace, debug, info, warn, error)",
   "  -h, --help                   Print help"]

/-- A name in a column of its own. -/
def column (label : String) : String :=
  "  " ++ String.ofList (label.toList ++ List.replicate (12 - label.length) ' ')

/-- The help on the program, or on one of its commands. -/
def helpText (about : Option Command) : String :=
  let lines := match about with
    | some c =>
      [c.about, "", "Usage: " ++ programName ++ " " ++ c.label ++ " [OPTIONS]", "", "Options:"] ++ settingLines
    | none =>
      ["Company registry with gRPC and REST APIs", "", "Usage: " ++ programName ++ " [OPTIONS] [COMMAND]", "",
       "Commands:"] ++
      Command.all.map (fun c => column c.label ++ c.about) ++
      [column "help" ++ aboutHelp, "", "Options:"] ++ settingLines ++
      ["  -V, --version                Print version"]
  "\n".intercalate lines ++ "\n"

/-- The end that wrong usage or a request for a text leads to. -/
def Stop.result : Stop → Result
  | .usage => { code := 2, err := "error: invalid usage\n\nFor more information, try '--help'.\n" }
  | .help about => { out := helpText about }
  | .helpOfHelp => { out := aboutHelp ++ "\n\nUsage: " ++ programName ++ " help [COMMAND]\n" }
  | .version => { out := programName ++ " " ++ programVersion ++ "\n" }

/-! ### Configuration -/

/-- The file that is read where none is named, if it is there. -/
def defaultConfig : String := "config.toml"

/-- What is said of a file that is not UTF-8. -/
def noText : String := "stream did not contain valid UTF-8"

/-- The error of a configuration. -/
def loadCauses (e : Config.LoadError) : Causes :=
  "load configuration" :: e.message :: match e with
    | .read _ cause => [cause]
    | .parse => []

/-- Reads the configuration of a named file. -/
def loadFile (path : String) (octets : Option Bytes) : Except Config.LoadError Config :=
  match octets with
  | none => Config.load path none
  | some b => match Bytes.ofUtf8? b with
    | none => .error (.read path noText)
    | some text => Config.load path (some text)

/-- The configuration that arguments and files give. -/
def configuration (files : String → Option Bytes) (a : Arguments) : Except Causes Config := do
  let loaded : Except Config.LoadError Config := match a.config with
    | some path => loadFile path (files path)
    | none =>
      if (files defaultConfig).isSome then loadFile defaultConfig (files defaultConfig) else .ok {}
  match loaded with
  | .error e => .error (loadCauses e)
  | .ok c => .ok (match a.logLevel with
    | some level => { c with general := { c.general with logLevel := level } }
    | none => c)

/-! ### The server -/

/-- Whether the store can be set up: the one in memory, for which the address is empty, at once; that of
a well-formed address is asked for until it answers. -/
def checkStorage (d : Config.Database) : Except Causes Unit :=
  if d.dsn = "" then .ok ()
  else match Database.checkAddress d.dsn with
    | .error e => .error ["setup storage", "connect to postgresql", (Database.connectFailure e).message]
    | .ok _ => .ok ()

/-- The error of a publisher. -/
def publisherCauses (e : Config.SetupError) : Causes :=
  "setup kafka" :: e.message :: match e with
    | .mechanism _ => []
    | .template d => [d.message]

/-- The server of a configuration over the store in memory: the publisher, the secret and the port are
looked at in this order. The store starts with a user, for whose password `salt` is spent. -/
def start (files : String → Option Bytes) (salt : Bytes) (now : Instant) (c : Config) :
    Except Causes Rpc.Server := do
  let publisher ← c.kafka.publisher.mapError publisherCauses
  let queue := Queue.start publisher c.kafka.queue
  let bare ← (Rpc.Server.of? (Bytes.utf8 c.server.jwtSecret) .empty queue).mapError (["setup api", ·])
  (Port.checkStart files c.server).mapError ("setup api" :: ·.chain)
  return { bare with service := { bare.service with store := Rpc.Server.seedAdmin .empty salt now } }

/-- What the program comes to: an end, a wait for the database at an address, or a server. -/
inductive Outcome where
  | ended (r : Result)
  | waiting (address : String)
  | serving (c : Config) (s : Rpc.Server)

/-- Runs the server of a configuration. The storage is looked at before everything else. -/
def runServer (files : String → Option Bytes) (salt : Bytes) (now : Instant) (c : Config) : Outcome :=
  match checkStorage c.database with
  | .error causes => .ended (.failed causes)
  | .ok _ =>
    if c.database.dsn ≠ "" then .waiting c.database.dsn
    else match start files salt now c with
      | .error causes => .ended (.failed causes)
      | .ok s => .serving c s

/-- The effective configuration. -/
def printConfig (c : Config) : Result :=
  match c.render? with
  | some text => { out := text }
  | none => .failed ["render configuration", "render config: out-of-range value for u64 type"]

/-- Runs the program. -/
def run (files : String → Option Bytes) (salt : Bytes) (now : Instant) (args : List String) : Outcome :=
  match Arguments.parse args with
  | .error s => .ended s.result
  | .ok a =>
    match configuration files a with
    | .error causes => .ended (.failed causes)
    | .ok c =>
      match a.command with
      | .version => .ended { out := programVersion ++ "\n" }
      | .configFile => .ended (printConfig c)
      | .run => runServer files salt now c

/-- The files that the program looks for, as far as those it knows tell. -/
def filesWanted (files : String → Option Bytes) (args : List String) : List String :=
  match Arguments.parse args with
  | .error _ => []
  | .ok a =>
    a.config.getD defaultConfig :: match configuration files a with
      | .error _ => []
      | .ok c => [c.server.tlsCert, c.server.tlsKey]

end CompanyRegistry.Cli
