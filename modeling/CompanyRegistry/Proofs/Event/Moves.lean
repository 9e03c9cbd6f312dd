import CompanyRegistry.Event.Queue
import CompanyRegistry.Proofs.Event.Writes

/-!
# What can happen to a queue

A `Move` is the smallest thing that happens to a queue: an event is offered, the worker makes one step,
the due writes land, the clock moves, the writer changes its mind, the queue is stopped. `Moves` puts
them one after another in any order, so it has every moment of every run, those in the middle of a wait
or of a shutdown included.

The operations of the queue are such sequences (`settle_moves`, `notify_moves`, `shutdown_moves`, ..), and
so are whole runs of them (`run_moves`). An invariant is therefore proved once for each move.
-/

namespace CompanyRegistry

/-- A publisher that is switched on and was not given anything yet. -/
def Publisher.fresh (t : KeyTemplate) (w : Writer) (now : Nat) : Publisher :=
  { template := some t, writer := w, now }

namespace Queue

/-- The queue with another failure of the writer in force. -/
def setFailure (q : Queue) (failure : Option TransportError) : Queue :=
  { q with publisher := { q.publisher with writer := { q.publisher.writer with failure } } }

/-- The queue with another delay of the writer in force. -/
def setDelay (q : Queue) (delay : Option Nat) : Queue :=
  { q with publisher := { q.publisher with writer := { q.publisher.writer with delay } } }

/-- The queue whose due writes have ended. -/
def landed (q : Queue) : Queue := { q with publisher := q.publisher.land }

/-! ### What the operations can do -/

/-- The queue that has given out its next ticket. -/
def numbered (q : Queue) : Queue := { q with nextTicket := q.nextTicket + 1 }

/-- There is room in the channel, and nobody waits for it. -/
def HasRoom (q : Queue) : Prop := q.channel.length < q.capacity ∧ q.waiting = []

theorem offer_eq (q : Queue) (e : Event) :
    q.offer e =
      if q.stopped then q.numbered.refuse q.nextTicket .shuttingDown
      else if q.channel.length < q.capacity && q.waiting.isEmpty then
        q.numbered.accept q.nextTicket e
      else match q.config.backpressure with
        | .reject => q.numbered.refuse q.nextTicket .queueFull
        | .block => { q.numbered with waiting := q.waiting ++ [⟨q.nextTicket, e⟩] } :=
  rfl

/-- An offer is refused by a stopped queue, accepted where there is room, and otherwise refused or put
among the waiting by the policy. -/
theorem offer_cases (q : Queue) (e : Event) :
    (q.stopped = true ∧ q.offer e = q.numbered.refuse q.nextTicket .shuttingDown) ∨
    (q.stopped = false ∧ q.HasRoom ∧ q.offer e = q.numbered.accept q.nextTicket e) ∨
    (q.stopped = false ∧ ¬ q.HasRoom ∧ q.config.backpressure = .reject ∧
      q.offer e = q.numbered.refuse q.nextTicket .queueFull) ∨
    (q.stopped = false ∧ ¬ q.HasRoom ∧ q.config.backpressure = .block ∧
      q.offer e = { q.numbered with waiting := q.waiting ++ [⟨q.nextTicket, e⟩] }) := by
  have hroom : (decide (q.channel.length < q.capacity) && q.waiting.isEmpty) = true ↔ q.HasRoom := by
    simp [HasRoom]
  rw [offer_eq]
  cases hstopped : q.stopped with
  | true => exact Or.inl ⟨rfl, by simp⟩
  | false =>
    by_cases h : q.HasRoom
    · exact Or.inr (Or.inl ⟨rfl, h, by simp only [hroom.mpr h]; simp⟩)
    · have hno := Bool.eq_false_iff.mpr (fun htrue => h (hroom.mp htrue))
      cases hpolicy : q.config.backpressure with
      | reject => exact Or.inr (Or.inr (Or.inl ⟨rfl, h, rfl, by simp only [hno]; simp⟩))
      | block => exact Or.inr (Or.inr (Or.inr ⟨rfl, h, rfl, by simp only [hno]; simp⟩))

theorem letIn_cases (q : Queue) :
    (q.waiting = [] ∧ q.letIn = q) ∨
    ∃ s rest, q.waiting = s :: rest ∧
      q.letIn = { q with waiting := rest }.accept s.ticket s.event := by
  unfold letIn
  split
  · rename_i h
    exact Or.inl ⟨h, rfl⟩
  · rename_i s rest h
    exact Or.inr ⟨s, rest, h, rfl⟩

/-- The worker hands over what it holds, or takes the next event, or ends. -/
theorem workerStep_cases {q q' : Queue} (h : q.workerStep? = some q') :
    (∃ e, q.held = some e ∧ q.publisher.flights.length < q.slots ∧
      q' = { q with held := none, publisher := q.publisher.start e }) ∨
    (∃ e rest, q.held = none ∧ q.channel = e :: rest ∧
      q' = { q with held := some e, channel := rest }.letIn) ∨
    (q.held = none ∧ q.channel = [] ∧ q.stopped = true ∧ q.workerEnded = false ∧
      q' = { q with workerEnded := true }) := by
  unfold workerStep? at h
  split at h
  · rename_i e hheld
    split at h
    · rename_i hfree
      exact Or.inl ⟨e, hheld, hfree, (Option.some.inj h).symm⟩
    · cases h
  · rename_i hheld
    split at h
    · rename_i e rest hchannel
      exact Or.inr (Or.inl ⟨e, rest, hheld, hchannel, (Option.some.inj h).symm⟩)
    · rename_i hchannel
      split at h
      · rename_i hends
        simp only [Bool.and_eq_true, Bool.not_eq_true'] at hends
        exact Or.inr (Or.inr ⟨hheld, hchannel, hends.1, hends.2, (Option.some.inj h).symm⟩)
      · cases h

/-! ### Moves -/

/-- One move of a queue, with the events that it offers. -/
inductive Move : Queue → List Event → Queue → Prop
  | offer (q : Queue) (e : Event) : Move q [e] (q.offer e)
  | work {q q' : Queue} (h : q.workerStep? = some q') : Move q [] q'
  | land (q : Queue) : Move q [] q.landed
  | wait (q : Queue) (t : Nat) : Move q [] (q.atTime t)
  | fail (q : Queue) (failure : Option TransportError) : Move q [] (q.setFailure failure)
  | delay (q : Queue) (delay : Option Nat) : Move q [] (q.setDelay delay)
  | stop (q : Queue) : Move q [] q.stop

/-- Moves in a row, with the events that they offer. -/
inductive Moves : Queue → List Event → Queue → Prop
  | none (q : Queue) : Moves q [] q
  | next {q q' q'' : Queue} {es fs : List Event} :
      Moves q es q' → Move q' fs q'' → Moves q (es ++ fs) q''

theorem Move.moves {q q' : Queue} {es : List Event} (h : Move q es q') : Moves q es q' :=
  .next (.none q) h

theorem Moves.trans {q q' q'' : Queue} {es fs : List Event} (h : Moves q es q')
    (h' : Moves q' fs q'') : Moves q (es ++ fs) q'' := by
  induction h' with
  | none => simpa using h
  | next _ hmove ih => simpa using Moves.next ih hmove

/-- Silent moves may be put in front. -/
theorem Moves.after {q q' q'' : Queue} {es : List Event} (h' : Moves q' es q'')
    (h : Moves q [] q') : Moves q es q'' := h.trans h'

/-- Silent moves may be put behind. -/
theorem Moves.andThen {q q' q'' : Queue} {es : List Event} (h : Moves q es q')
    (h' : Moves q' [] q'') : Moves q es q'' := by
  simpa using h.trans h'

/-- What each move preserves, moves in a row preserve. -/
theorem Moves.preserves {P : Queue → Prop}
    (hmove : ∀ {es : List Event} {q q' : Queue}, Move q es q' → P q → P q') {es : List Event}
    {q q' : Queue} (hmoves : Moves q es q') (h : P q) : P q' := by
  induction hmoves with
  | none => exact h
  | next _ hlast ih => exact hmove hlast ih

/-! ### The operations are moves -/

theorem work_moves (fuel : Nat) (q : Queue) : Moves q [] (work fuel q) := by
  induction fuel generalizing q with
  | zero => exact .none q
  | succ fuel ih =>
    unfold work
    split
    · rename_i q' hstep
      exact (ih q').after (Move.work hstep).moves
    · exact .none q

theorem settle_moves (q : Queue) : Moves q [] q.settle :=
  (work_moves _ _).after (Move.land q).moves

theorem atDeadline_moves (q : Queue) (deadline : Option Nat) :
    Moves q [] (q.atDeadline deadline) := by
  cases deadline with
  | none => exact .none q
  | some t => exact (Move.wait q t).moves

theorem runUntil_moves (holds : Queue → Bool) (fuel : Nat) (q : Queue) (deadline : Option Nat) :
    Moves q [] (runUntil holds fuel q deadline).2 := by
  induction fuel generalizing q with
  | zero => exact atDeadline_moves q deadline
  | succ fuel ih =>
    unfold runUntil
    split
    · exact .none q
    · split
      · rename_i d _
        split
        · exact (ih _).after ((settle_moves _).after (Move.wait q d).moves)
        · exact atDeadline_moves q deadline
      · exact atDeadline_moves q deadline

theorem advance_moves (q : Queue) (ms : Nat) : Moves q [] (q.advance ms) :=
  (settle_moves _).after ((runUntil_moves _ _ _ _).after (settle_moves q))

theorem notify_moves (q : Queue) (e : Event) : Moves q [e] (q.notify e).2 := by
  have hoffer : Moves q [e] (q.offer e) := (Move.offer q e).moves
  unfold notify
  dsimp only
  split
  · exact hoffer
  · exact hoffer.andThen ((runUntil_moves _ _ _ _).after (settle_moves _))

/-- All of a shutdown comes after its first move, which stops the queue. -/
theorem shutdown_moves_stop (q : Queue) (ms : Nat) : Moves q.stop [] (q.shutdown ms).2 := by
  unfold shutdown
  dsimp only
  split
  · exact .none _
  · exact (runUntil_moves _ _ _ _).after (settle_moves _)

theorem shutdown_moves (q : Queue) (ms : Nat) : Moves q [] (q.shutdown ms).2 :=
  (shutdown_moves_stop q ms).after (Move.stop q).moves

/-! ### Runs -/

/-- What the users of a queue do with it. An event that is offered in the background is answered
later. -/
inductive Action
  | notify (e : Event)
  | offer (e : Event)
  | fail (failure : Option TransportError)
  | delay (delay : Option Nat)
  | advance (ms : Nat)
  | settle
  | shutdown (ms : Nat)

/-- The events that an action offers. -/
def Action.offered : Action → List Event
  | .notify e => [e]
  | .offer e => [e]
  | _ => []

/-- The queue after an action. -/
def act (q : Queue) : Action → Queue
  | .notify e => (q.notify e).2
  | .offer e => q.offer e
  | .fail failure => q.setFailure failure
  | .delay delay => q.setDelay delay
  | .advance ms => q.advance ms
  | .settle => q.settle
  | .shutdown ms => (q.shutdown ms).2

/-- The queue after actions in a row. -/
def run (q : Queue) (actions : List Action) : Queue := actions.foldl act q

theorem act_moves (q : Queue) (a : Action) : Moves q a.offered (q.act a) := by
  cases a with
  | notify e => exact notify_moves q e
  | offer e => exact (Move.offer q e).moves
  | fail failure => exact (Move.fail q failure).moves
  | delay delay => exact (Move.delay q delay).moves
  | advance ms => exact advance_moves q ms
  | settle => exact settle_moves q
  | shutdown ms => exact shutdown_moves q ms

theorem run_moves (q : Queue) (actions : List Action) :
    Moves q (actions.flatMap Action.offered) (q.run actions) := by
  induction actions generalizing q with
  | nil => exact .none q
  | cons a actions ih => exact (act_moves q a).trans (ih (q.act a))

end Queue

end CompanyRegistry
