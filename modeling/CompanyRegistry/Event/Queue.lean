import CompanyRegistry.Event.Publisher

/-!
# The publish queue

Between the calls that change the register and the publisher stands a bounded channel. A worker takes
one event at a time from it and hands it to the publisher as soon as fewer than the greatest number of
writes are in flight; meanwhile it holds the event. When the channel is full, the policy decides whether
the sender is refused or waits for space.

A shutdown accepts nothing more, refuses the senders that wait, and lets the worker hand over what is
queued; it succeeds if everything has ended before its deadline. After a deadline that was missed the
worker goes on.

An event lives in exactly one place: among the waiting, in the channel, with the worker, in flight or
attempted. `settle` moves events as far as they get without time passing.
-/

namespace CompanyRegistry

/-- What happens to a sender when the channel is full. -/
inductive Backpressure where
  | reject
  | block
  deriving DecidableEq, Repr

namespace Backpressure

/-- The label of a policy. -/
def label : Backpressure → String
  | .reject => "reject"
  | .block => "block"

/-- The policy with this label. -/
def ofLabel? (s : String) : Option Backpressure := [.reject, .block].find? (·.label == s)

/-- The policy in JSON. -/
def toJson (b : Backpressure) : Json := .text b.label

/-- Reads a policy from JSON. -/
def ofJson : Json.Decoder Backpressure := Json.asVariant ofLabel?

end Backpressure

/-- The sizes of a queue as they are configured; zero counts as one. -/
structure QueueConfig where
  capacity : Nat := 1024
  backpressure : Backpressure := .reject
  maxInFlight : Nat := 16
  deriving DecidableEq

/-- Why an event is not accepted. -/
inductive NotifyError where
  | queueFull
  | shuttingDown
  deriving DecidableEq, Repr

/-- The text of a refusal. -/
def NotifyError.message : NotifyError → String
  | .queueFull => "publish queue is full"
  | .shuttingDown => "publisher is shutting down"

/-- A sender that waits for space. -/
structure Sender where
  ticket : Nat
  event : Event

/-- A queue with its worker and its publisher. -/
structure Queue where
  config : QueueConfig
  publisher : Publisher
  channel : List Event := []
  held : Option Event := none
  waiting : List Sender := []
  /-- The answers of senders, by ticket, in the order in which they were given. -/
  answered : List (Nat × Except NotifyError Unit) := []
  /-- Every accepted event, in the order of acceptance. -/
  accepted : List Event := []
  nextTicket : Nat := 0
  stopped : Bool := false
  workerEnded : Bool := false

namespace Queue

/-- A queue over a publisher. -/
def start (publisher : Publisher) (config : QueueConfig) : Queue := { config, publisher }

/-- The greatest number of events in the channel. -/
def capacity (q : Queue) : Nat := max 1 q.config.capacity

/-- The greatest number of writes in flight. -/
def slots (q : Queue) : Nat := max 1 q.config.maxInFlight

/-- Puts an event at the end of the channel. -/
def accept (q : Queue) (ticket : Nat) (e : Event) : Queue :=
  { q with
    channel := q.channel ++ [e]
    accepted := q.accepted ++ [e]
    answered := q.answered ++ [(ticket, .ok ())] }

/-- Refuses a sender. -/
def refuse (q : Queue) (ticket : Nat) (e : NotifyError) : Queue :=
  { q with answered := q.answered ++ [(ticket, .error e)] }

/-- Lets the first waiting sender into the channel. -/
def letIn (q : Queue) : Queue :=
  match q.waiting with
  | [] => q
  | s :: rest => { q with waiting := rest }.accept s.ticket s.event

/-- One step of the worker, if it can make one: it hands over the event it holds, or takes the next
one, or ends when the queue is stopped and empty. -/
def workerStep? (q : Queue) : Option Queue :=
  match q.held with
  | some e =>
    if q.publisher.flights.length < q.slots then
      some { q with held := none, publisher := q.publisher.start e }
    else none
  | none =>
    match q.channel with
    | e :: rest => some ({ q with held := some e, channel := rest }.letIn)
    | [] => if q.stopped && !q.workerEnded then some { q with workerEnded := true } else none

/-- The steps that the worker can still make without time passing, at most. -/
def pendingSteps (q : Queue) : Nat := 2 * (q.channel.length + q.waiting.length) + 2

/-- The worker's steps, as many as it can make; `fuel` bounds them. -/
def work : Nat → Queue → Queue
  | 0, q => q
  | fuel + 1, q =>
    match q.workerStep? with
    | some q' => work fuel q'
    | none => q

/-- Ends the writes that are due and lets the worker go as far as it gets. -/
def settle (q : Queue) : Queue :=
  let q := { q with publisher := q.publisher.land }
  work q.pendingSteps q

/-- Events that are not yet attempted. -/
def unfinished (q : Queue) : Nat :=
  q.waiting.length + q.channel.length + q.held.toList.length + q.publisher.flights.length

/-- Moves the clock to an instant, never back. -/
def atTime (q : Queue) (t : Nat) : Queue :=
  { q with publisher := { q.publisher with now := max q.publisher.now t } }

/-- Whether an instant comes before a deadline, if there is one. -/
def isBefore (t : Nat) (deadline : Option Nat) : Bool := deadline.all (t < ·)

/-- Moves the clock to a deadline, if there is one. -/
def atDeadline (q : Queue) (deadline : Option Nat) : Queue := (deadline.map q.atTime).getD q

/-- Lets time pass until a condition holds on a settled queue, at most until a deadline, at which it is
asked no more; `fuel` bounds the instants at which a write ends. -/
def runUntil (holds : Queue → Bool) : Nat → Queue → Option Nat → Bool × Queue
  | 0, q, deadline => (false, q.atDeadline deadline)
  | fuel + 1, q, deadline =>
    if holds q then (true, q)
    else match q.publisher.nextDue? with
      | some d =>
        if isBefore d deadline then runUntil holds fuel (q.atTime d).settle deadline
        else (false, q.atDeadline deadline)
      | none => (false, q.atDeadline deadline)

/-- Lets an amount of time pass. -/
def advance (q : Queue) (ms : Nat) : Queue :=
  let q := q.settle
  (runUntil (fun _ => false) (q.unfinished + 1) q (some (q.publisher.now + ms))).2.settle

/-- Offers an event: it is accepted, refused, or waits for space. The answer comes under the ticket. -/
def offer (q : Queue) (e : Event) : Queue :=
  let ticket := q.nextTicket
  let q := { q with nextTicket := ticket + 1 }
  if q.stopped then q.refuse ticket .shuttingDown
  else if q.channel.length < q.capacity && q.waiting.isEmpty then q.accept ticket e
  else match q.config.backpressure with
    | .reject => q.refuse ticket .queueFull
    | .block => { q with waiting := q.waiting ++ [⟨ticket, e⟩] }

/-- The answer to a ticket, if it was given. -/
def answer? (q : Queue) (ticket : Nat) : Option (Except NotifyError Unit) := q.answered.lookup ticket

/-- Offers an event and waits for the answer, which time may have to pass for. -/
def notify (q : Queue) (e : Event) : Except NotifyError Unit × Queue :=
  let ticket := q.nextTicket
  let q := q.offer e
  match q.answer? ticket with
  | some r => (r, q)
  | none =>
    let q := q.settle
    let q := (runUntil (fun q => (q.answer? ticket).isSome) (q.unfinished + 1) q none).2
    ((q.answer? ticket).getD (.error .shuttingDown), q)

/-- Accepts nothing more, and refuses the senders that wait. -/
def stop (q : Queue) : Queue :=
  { q with
    stopped := true
    waiting := []
    answered := q.answered ++ q.waiting.map fun s => (s.ticket, .error .shuttingDown) }

/-- Whether nothing is left to do. -/
def isDrained (q : Queue) : Bool := q.workerEnded && q.publisher.flights.isEmpty

/-- Stops the queue and waits until everything has ended, at most until the deadline. A deadline of no
time is missed without the worker having run. -/
def shutdown (q : Queue) (ms : Nat) : Bool × Queue :=
  let q := q.stop
  if ms = 0 then (false, q)
  else
    let q := q.settle
    runUntil isDrained (q.unfinished + 1) q (some (q.publisher.now + ms))

end Queue

end CompanyRegistry
