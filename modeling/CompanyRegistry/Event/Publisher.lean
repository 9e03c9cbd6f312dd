import CompanyRegistry.Event.KeyTemplate
import CompanyRegistry.Text.Quoted

/-!
# Publishing

A publisher turns events into messages and hands them to a writer. Time is a number of milliseconds; it
moves only where a function says so. A write takes as long as the writer's delay says at its start, and
succeeds or fails as the writer stands at its end; with no delay it ends at once. A publisher without a
template is switched off: it accepts every event and writes nothing.

Each event given to a publisher is either in flight or has been attempted, once.
-/

namespace CompanyRegistry

/-- Why the log does not take a message. -/
inductive TransportError where
  | broker (text : String)
  | noPartitions (topic : String)
  | timeout
  deriving DecidableEq, Repr

/-- The text of a transport error. -/
def TransportError.message : TransportError → String
  | .broker s => "broker write failed: " ++ s
  | .noPartitions t => "no partitions available for topic '" ++ t ++ "'"
  | .timeout => "broker write timed out"

/-- The end of a log: what it does with messages, and those it has. -/
structure Writer where
  delay : Option Nat := none
  failure : Option TransportError := none
  messages : List Message := []

/-- Ends a write. -/
def Writer.write (w : Writer) (m : Message) : Except TransportError Unit × Writer :=
  match w.failure with
  | some e => (.error e, w)
  | none => (.ok (), { w with messages := w.messages ++ [m] })

/-- A write that goes on until an instant. -/
structure Flight where
  event : Event
  due : Nat

/-- A write that has ended. -/
structure Attempt where
  event : Event
  result : Except TransportError Unit

/-- A publisher with its writer and its clock. -/
structure Publisher where
  template : Option KeyTemplate
  writer : Writer := {}
  now : Nat := 0
  /-- In the order of their starts. -/
  flights : List Flight := []
  /-- In the order of their ends. -/
  attempts : List Attempt := []

namespace Publisher

/-- Whether events are written at all. -/
def isEnabled (p : Publisher) : Bool := p.template.isSome

/-- The publisher as it is shown. -/
def shown (p : Publisher) : String :=
  let template := match p.template with
    | none => "None"
    | some t => "Some(" ++ Text.shown t.source ++ ")"
  "EventPublisher \x7b enabled: " ++ (if p.isEnabled then "true" else "false") ++
    ", key_template: " ++ template ++ ", in_flight: " ++ toString p.flights.length ++ " \x7d"

/-- Ends the write of an event. -/
def finish (p : Publisher) (e : Event) : Publisher :=
  match p.template with
  | none => { p with attempts := p.attempts ++ [⟨e, .ok ()⟩] }
  | some t =>
    let (result, writer) := p.writer.write (t.message e)
    { p with writer, attempts := p.attempts ++ [⟨e, result⟩] }

/-- Whether a write that starts now ends now. -/
def isInstant (p : Publisher) : Bool := p.template.isNone || p.writer.delay.getD 0 == 0

/-- Starts the write of an event. -/
def start (p : Publisher) (e : Event) : Publisher :=
  if p.isInstant then p.finish e
  else { p with flights := p.flights ++ [⟨e, p.now + p.writer.delay.getD 0⟩] }

/-- The writes that are due, in the order in which they end. -/
def dueFlights (p : Publisher) : List Flight :=
  (p.flights.filter (·.due ≤ p.now)).mergeSort fun a b => decide (a.due ≤ b.due)

/-- Ends every write that is due. -/
def land (p : Publisher) : Publisher :=
  p.dueFlights.foldl (fun p f => p.finish f.event)
    { p with flights := p.flights.filter fun f => ¬ f.due ≤ p.now }

/-- The instant at which the next write ends. -/
def nextDue? (p : Publisher) : Option Nat := (p.flights.map (·.due)).min?

/-- Lets time pass up to an instant, ending each write at its own; `fuel` bounds their number. -/
def runUntil : Nat → Publisher → Nat → Publisher
  | 0, p, t => { p with now := max p.now t }.land
  | fuel + 1, p, t =>
    match p.land.nextDue? with
    | some d => if d ≤ t then runUntil fuel { p.land with now := max p.now d } t
                else { p.land with now := max p.now t }
    | none => { p.land with now := max p.now t }

/-- Lets an amount of time pass. -/
def advance (p : Publisher) (ms : Nat) : Publisher := runUntil p.flights.length p (p.now + ms)

/-- Waits until a condition holds after the writes of some instant have ended, at most until a
deadline, at which it is asked no more. -/
def waitUntil (holds : Publisher → Bool) : Nat → Publisher → Nat → Bool × Publisher
  | 0, p, deadline => (false, { p with now := max p.now deadline })
  | fuel + 1, p, deadline =>
    if holds p then (true, p)
    else match p.nextDue? with
      | some d =>
        if d < deadline then waitUntil holds fuel { p with now := max p.now d }.land deadline
        else (false, { p with now := max p.now deadline })
      | none => (false, { p with now := max p.now deadline })

/-- Waits until nothing is in flight, or the deadline has come. -/
def drain (p : Publisher) (ms : Nat) : Bool × Publisher :=
  p.waitUntil (·.flights.isEmpty) (p.flights.length + 1) (p.now + ms)

/-- Waits until so many messages are written, or the deadline has come. -/
def waitForMessages (p : Publisher) (count ms : Nat) : Bool × Publisher :=
  p.waitUntil (fun p => decide (count ≤ p.writer.messages.length)) (p.flights.length + 1) (p.now + ms)

/-- Publishes an event and waits for its end. Writes that end before it are ended on the way, those
that end with it right after. -/
def publish (p : Publisher) (e : Event) : Except TransportError Unit × Publisher :=
  let p :=
    if p.isInstant then p
    else
      let due := p.now + p.writer.delay.getD 0
      { runUntil p.flights.length p (due - 1) with now := due }
  let p := p.finish e
  ((p.attempts.getLast?.map (·.result)).getD (.ok ()), p.land)

end Publisher

end CompanyRegistry
