/-!
# The command line

A command with two settings, which may stand before the command's name or behind it; the one behind it
counts. Arguments are read from the left, and a request for help ends the reading, so what is wrong
behind it is not seen. A setting's value counts as given only when the next argument was looked at: until
then it is `pending`.
-/

namespace CompanyRegistry.Cli

/-- What can be asked for by name. -/
inductive Command where
  | run
  | configFile
  | version
  deriving DecidableEq

/-- The command's name. -/
def Command.label : Command → String
  | .run => "run"
  | .configFile => "configfile"
  | .version => "version"

/-- All commands. -/
def Command.all : List Command := [.run, .configFile, .version]

/-- The command of a name. -/
def Command.ofLabel? (s : String) : Option Command := Command.all.find? (·.label == s)

/-- What a value is for. -/
inductive Setting where
  | config
  | logLevel
  deriving DecidableEq

/-- The setting of a long name. -/
def Setting.ofName? (name : String) : Option Setting :=
  if name = "config" then some .config
  else if name = "log-level" then some .logLevel
  else none

/-- What ends the reading early: wrong usage, or a request for a text. -/
inductive Stop where
  | usage
  | help (about : Option Command)
  | helpOfHelp
  | version
  deriving DecidableEq

/-! ### Settings of one level -/

/-- The settings before a command's name, or those behind it. -/
structure Level where
  config : Option String := none
  logLevel : Option String := none
  pending : Option (Setting × Option String) := none
  deriving DecidableEq

namespace Level

/-- Gives a setting its value, which must be its first; a file has a name. -/
def give (l : Level) (s : Setting) (value : String) : Except Stop Level :=
  match s with
  | .config =>
    if l.config.isSome || value == "" then .error .usage
    else .ok { l with config := some value }
  | .logLevel => if l.logLevel.isSome then .error .usage else .ok { l with logLevel := some value }

/-- Takes what is pending; a setting without a value is wrong usage. -/
def settle (l : Level) : Except Stop Level :=
  match l.pending with
  | none => .ok l
  | some (_, none) => .error .usage
  | some (s, some value) => { l with pending := none }.give s value

/-- A setting whose value is to follow. -/
def await (l : Level) (s : Setting) : Except Stop Level := do
  let l ← l.settle
  return { l with pending := some (s, none) }

/-- A setting with its value in the same argument. -/
def attach (l : Level) (s : Setting) (value : String) : Except Stop Level := do
  let l ← l.settle
  l.give s value

/-- Ends the reading, unless what is pending is wrong. -/
def stop (l : Level) (s : Stop) : Except Stop Level := do
  let _ ← l.settle
  .error s

end Level

/-! ### Arguments -/

/-- An argument by its hyphens. -/
inductive Word where
  | plain (s : String)
  | ending
  | long (name : String) (value : Option String)
  | short (letters : List Char)
  deriving DecidableEq

/-- Reads an argument. A single hyphen is a plain one. -/
def Word.of (s : String) : Word :=
  match s.toList with
  | ['-', '-'] => .ending
  | '-' :: '-' :: r =>
    let name := String.ofList (r.takeWhile (· ≠ '='))
    match r.dropWhile (· ≠ '=') with
    | _ :: value => .long name (some (String.ofList value))
    | [] => .long name none
  | '-' :: c :: r => .short (c :: r)
  | _ => .plain s

/-- Takes a long option. The version can be asked for before a command's name only. -/
def readLong (about : Option Command) (l : Level) (name : String) (value : Option String) :
    Except Stop Level :=
  match Setting.ofName? name, value with
  | some s, some value => l.attach s value
  | some s, none => l.await s
  | none, none =>
    if name = "help" then l.stop (.help about)
    else if name = "version" ∧ about = none then l.stop .version
    else .error .usage
  | none, some _ => .error .usage

/-- Takes short options; the letters behind that of a setting are its value. -/
def readShort (about : Option Command) (l : Level) : List Char → Except Stop Level
  | ['c'] => l.await .config
  | 'c' :: '=' :: value => l.attach .config (String.ofList value)
  | 'c' :: value => l.attach .config (String.ofList value)
  | 'h' :: _ => l.stop (.help about)
  | 'V' :: _ => if about = none then l.stop .version else .error .usage
  | _ => .error .usage

/-- Whether a value is to follow. -/
def Level.awaits (l : Level) : Option Setting :=
  match l.pending with
  | some (s, none) => some s
  | _ => none

/-- What help the names behind `help` ask for. -/
def helpFor : List String → Stop
  | [] => .help none
  | [name] => if name = "help" then .helpOfHelp else match Command.ofLabel? name with
    | some c => .help (some c)
    | none => .usage
  | _ => .usage

/-- Reads the arguments of one level: of the command `about`, or, for `none`, those before a command's
name, which is then given with the arguments behind it. -/
def readLevel (about : Option Command) (l : Level) :
    List String → Except Stop (Level × Option (Command × List String))
  | [] => .ok (l, none)
  | arg :: rest =>
    match Word.of arg with
    | .ending => if rest.isEmpty then .ok (l, none) else .error .usage
    | .long name value => do readLevel about (← readLong about l name value) rest
    | .short letters => do readLevel about (← readShort about l letters) rest
    | .plain s =>
      match l.awaits, about with
      | some setting, _ => readLevel about { l with pending := some (setting, some s) } rest
      | none, some _ => .error .usage
      | none, none =>
        if s = "help" then .error (helpFor rest)
        else match Command.ofLabel? s with
          | some c => .ok (l, some (c, rest))
          | none => .error .usage

/-- A command with its settings. -/
structure Arguments where
  command : Command
  config : Option String
  logLevel : Option String
  deriving DecidableEq

/-- Reads all arguments; without a command's name the server is run. The level behind the name is
settled first. -/
def Arguments.parse (args : List String) : Except Stop Arguments := do
  match ← readLevel none {} args with
  | (outer, none) =>
    let outer ← outer.settle
    return ⟨.run, outer.config, outer.logLevel⟩
  | (outer, some (command, rest)) =>
    let (inner, _) ← readLevel (some command) {} rest
    let inner ← inner.settle
    let outer ← outer.settle
    return ⟨command, inner.config <|> outer.config, inner.logLevel <|> outer.logLevel⟩

end CompanyRegistry.Cli
