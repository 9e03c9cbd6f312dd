import CompanyRegistry.Event.Queue
import CompanyRegistry.Rpc.Service

/-!
# The service and its queue

A server answers calls and hands each event to the publish queue. What the queue makes of an event has
no part in the answer: a refused event is lost and the change stands.
-/

namespace CompanyRegistry.Rpc

/-- A service with the queue for its events. -/
structure Server where
  service : Service
  queue : Queue

namespace Server

/-- The text of the defect of an empty secret. -/
def noSecret : String := "jwt_secret must be set"

/-- A server with this secret, if it is one. -/
def of? (secret : Bytes) (store : Store) (queue : Queue) : Except String Server :=
  match Token.Key.of? secret with
  | some key => .ok ⟨{ key, store }, queue⟩
  | none => .error noSecret

/-- Hands over the event of a call, if it has one. -/
def tell (queue : Queue) : Option Event → Queue
  | some e => (queue.notify e).2
  | none => queue

/-- Answers a call. -/
def call (s : Server) (m : Moment) (authorization : Option Bytes) (c : Call) :
    Except Status Reply × Server :=
  let o := s.service.handle m authorization c
  (o.answer, ⟨{ s.service with store := o.store }, tell s.queue o.event⟩)

/-! ### The first user -/

/-- The name of the user that a store in memory starts with. -/
def adminName : String := "admin"

/-- The password of that user, to be changed. -/
def adminPassword : String := "changeme"

/-- A store with that user, unless the name is taken. -/
def seedAdmin (store : Store) (salt : Bytes) (now : Instant) : Store :=
  match Password.store adminPassword Password.usualIterations salt with
  | .error _ => store
  | .ok hash => match store.createUser adminName hash true 0 now with
    | .ok (_, store) => store
    | .error _ => store

end Server

end CompanyRegistry.Rpc
