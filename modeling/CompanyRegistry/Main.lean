import CompanyRegistry.Cli.Program
import CompanyRegistry.Http.Connection
import CompanyRegistry.Rest.Site
import Std.Time.Format

/-!
# The command

Hands the program its arguments and files and prints what it says. A server answers the requests of one
connection, which is standard input and output; the clock and all that is random come from here.
-/

namespace CompanyRegistry.Main

/-- Nanoseconds since the start of 1970. -/
def clock : IO Int := do
  return (← Std.Time.Timestamp.now).toNanosecondsSinceUnixEpoch.val

/-- The start of 1970, for a clock out of range. -/
def epoch : Instant := ⟨⟨1970, 1, 1, by decide⟩, 0, 0, by decide⟩

/-- The instant of a reading of the clock. -/
def instantOf (n : Int) : Instant := (Instant.ofNanoseconds? n).getD epoch

/-- Random octets. -/
def randomOctets (n : Nat) : IO Bytes := do
  return (← IO.getRandomBytes (USize.ofNat n)).toList

/-- What the next call takes from outside. -/
def moment : IO Rpc.Moment := do
  let n ← clock
  return ⟨instantOf n, instantOf n, .timeOrdered (n / 1000000).toNat (← randomOctets 10)⟩

/-- The content of a file, if it can be read. -/
def readFile? (path : String) : IO (Option Bytes) := do
  try return some (← IO.FS.readBinFile path).toList
  catch _ => return none

/-- The contents of those files that can be read. -/
def readFiles (paths : List String) : IO (List (String × Bytes)) := do
  let mut found := []
  for path in paths do
    if let some content ← readFile? path then found := (path, content) :: found
  return found

/-- The files that the program needs: the configuration, then those that it names. -/
def gather (args : List String) : IO (List (String × Bytes)) := do
  let first ← readFiles (Cli.filesWanted (fun _ => none) args)
  readFiles (Cli.filesWanted (first.lookup ·) args)

/-- The files below a directory, as far down as `depth`; a directory that cannot be read has none. -/
def readTree (depth : Nat) (directory : String) (above : List String) :
    IO (List (List String × Bytes)) := do
  match depth with
  | 0 => return []
  | depth + 1 =>
    let entries ← try (← IO.FS.realPath directory).readDir catch _ => pure #[]
    let mut found := []
    for entry in entries do
      let place := above ++ [entry.fileName]
      match ← readFile? entry.path.toString with
      | some content => found := (place, content) :: found
      | none => found := (← readTree depth entry.path.toString place) ++ found
    return found

/-- Writes a response. -/
def send (r : Http.Response) : IO Unit := do
  let out ← IO.getStdout
  out.write ⟨r.octets.toArray⟩
  out.flush

/-- Answers the requests of the connection until it ends; `arrived` is what was not answered yet. -/
partial def serve (router : Port.Router) (s : Rpc.Server) (arrived : Bytes) : IO Rpc.Server := do
  match Http.readRequest arrived with
  | .malformed =>
    send (.bare 400)
    return s
  | .more =>
    let more ← (← IO.getStdin).read 65536
    if more.isEmpty then return s
    serve router s (arrived ++ more.toList)
  | .whole q rest =>
    let (response, s) := router.handle (← moment) q s
    send response
    let s := { s with queue := s.queue.settle }
    if q.keepsOpen then serve router s rest else return s

/-- Serves a configuration, then hands over the events that are left. -/
def serveConfig (c : Config) (s : Rpc.Server) : IO Unit := do
  let files : Rest.Files := ⟨← readTree 16 c.server.staticDir []⟩
  let router : Port.Router :=
    { cors := c.server.corsOrigin?.bind Http.Cors.of?, rest := some (Rest.site files) }
  let s ← serve router s []
  if !(s.queue.shutdown c.kafka.drainTimeout).1 then
    IO.eprintln "not every event was published before the drain deadline"

/-- Waits for a database that never answers. -/
partial def wait (address : String) : IO Unit := do
  IO.sleep 2000
  wait address

end CompanyRegistry.Main

/-- Runs the program. -/
def main (args : List String) : IO UInt32 := do
  let files ← CompanyRegistry.Main.gather args
  let salt ← CompanyRegistry.Main.randomOctets 16
  let now := CompanyRegistry.Main.instantOf (← CompanyRegistry.Main.clock)
  match CompanyRegistry.Cli.run (files.lookup ·) salt now args with
  | .ended r =>
    IO.print r.out
    IO.eprint r.err
    return UInt32.ofNat r.code
  | .waiting address =>
    CompanyRegistry.Main.wait address
    return 1
  | .serving c s =>
    CompanyRegistry.Main.serveConfig c s
    return 0
