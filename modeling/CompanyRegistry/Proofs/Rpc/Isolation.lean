import CompanyRegistry.Proofs.Event.Dispatch
import CompanyRegistry.Proofs.Event.Progress
import CompanyRegistry.Proofs.Rpc.Turns

/-!
# Callers do not notice the queue

Calls come to a server at their times, and between them its queue goes its own way: the worker hands
over, writes end or fail, other senders fill the channel, time passes, the queue is stopped (`Serves`).
The answers and the service afterwards are then those of the service on its own (`Service.answers`,
`Serves.answers_eq`), so two servers with different queues in different troubles cannot be told apart.

Time is what a queue could still take from a caller. One that rejects takes none (`tell_now`), so each
call is answered before the next one comes, however soon that is (`exists_serves`).
-/

namespace CompanyRegistry

namespace Queue

/-! ### A queue that rejects does not make its callers wait -/

theorem lookup_append_isSome {answers : List (Nat × Except NotifyError Unit)} {ticket : Nat}
    {answer : Except NotifyError Unit} :
    ((answers ++ [(ticket, answer)]).lookup ticket).isSome = true := by
  induction answers with
  | nil => simp
  | cons first rest ih =>
    rw [List.cons_append, List.lookup_cons]
    split
    · rfl
    · exact ih

theorem offer_answered {q : Queue} (hreject : q.config.backpressure = .reject) (e : Event) :
    ((q.offer e).answer? q.nextTicket).isSome = true := by
  rcases offer_cases q e with ⟨-, h⟩ | ⟨-, -, h⟩ | ⟨-, -, -, h⟩ | ⟨-, -, hblock, -⟩
  · exact h ▸ lookup_append_isSome
  · exact h ▸ lookup_append_isSome
  · exact h ▸ lookup_append_isSome
  · cases hreject.symm.trans hblock

/-- Whatever the answer, a queue that rejects gives it at once. -/
theorem notify_of_reject {q : Queue} (hreject : q.config.backpressure = .reject) (e : Event) :
    (q.notify e).2 = q.offer e := by
  obtain ⟨answer, hanswer⟩ := Option.isSome_iff_exists.mp (offer_answered hreject e)
  simp only [notify, hanswer]

end Queue

namespace Rpc

open Queue (Moves)

/-- A call that comes at a time, with what it takes from outside. -/
structure Visit where
  time : Nat
  moment : Moment
  authorization : Option Bytes
  call : Call

/-- Visits in a row, each at its time by the clock of the queue, with their answers. Meanwhile anything
may happen to the queue. -/
inductive Serves : Server → List Visit → List (Except Status Reply) → Server → Prop
  | none (s : Server) : Serves s [] [] s
  | meanwhile {s s' : Server} {q : Queue} {es : List Event} {visits : List Visit}
      {answers : List (Except Status Reply)} (hmoves : Moves s.queue es q)
      (hrest : Serves { s with queue := q } visits answers s') : Serves s visits answers s'
  | visit {s s' : Server} {v : Visit} {visits : List Visit}
      {answers : List (Except Status Reply)} (htime : s.queue.publisher.now = v.time)
      (hrest : Serves (s.call v.moment v.authorization v.call).2 visits answers s') :
      Serves s (v :: visits) ((s.call v.moment v.authorization v.call).1 :: answers) s'

/-! ### What is answered -/

/-- The answers of a service on its own, and the service after them. -/
def Service.answers (s : Service) : List Visit → List (Except Status Reply) × Service
  | [] => ([], s)
  | v :: visits =>
    let o := s.handle v.moment v.authorization v.call
    let later := answers { s with store := o.store } visits
    (o.answer :: later.1, later.2)

/-- Whatever happens to the queue, the answers are those of the service on its own. -/
theorem Serves.answers_eq {s s' : Server} {visits : List Visit}
    {answers : List (Except Status Reply)} (h : Serves s visits answers s') :
    (answers, s'.service) = s.service.answers visits := by
  induction h with
  | none => rfl
  | meanwhile _ _ ih => exact ih
  | visit _ _ ih =>
    obtain ⟨hanswers, hservice⟩ := Prod.mk.inj ih
    exact Prod.ext (congrArg (List.cons _) hanswers) hservice

/-! ### That it is answered in time -/

/-- Telling a queue that rejects takes no time and leaves it one that rejects. -/
theorem Server.tell_of_reject {q : Queue} (hreject : q.config.backpressure = .reject)
    (event : Option Event) :
    (tell q event).publisher.now = q.publisher.now ∧ (tell q event).config = q.config := by
  cases event with
  | none => exact ⟨rfl, rfl⟩
  | some e =>
    have htell : tell q (some e) = q.offer e := Queue.notify_of_reject hreject e
    rw [htell]
    exact ⟨congrArg _ (Queue.offer_publisher q e), (Queue.Move.offer q e).config⟩

theorem exists_serves {visits : List Visit} {s : Server}
    (hreject : s.queue.config.backpressure = .reject)
    (hordered : visits.Pairwise fun v v' => v.time ≤ v'.time)
    (hlater : ∀ v ∈ visits, s.queue.publisher.now ≤ v.time) :
    ∃ answers s', Serves s visits answers s' := by
  induction visits generalizing s with
  | nil => exact ⟨[], s, .none s⟩
  | cons v visits ih =>
    obtain ⟨hfirst, hrest⟩ := List.pairwise_cons.mp hordered
    -- the queue waits until the visit, and is no later after it
    have hnow : (s.queue.atTime v.time).publisher.now = v.time :=
      Nat.max_eq_right (hlater v List.mem_cons_self)
    obtain ⟨htime, hconfig⟩ := Server.tell_of_reject (q := s.queue.atTime v.time) hreject
      (s.service.handle v.moment v.authorization v.call).event
    obtain ⟨answers, s', hserves⟩ :=
      ih (s := (Server.call { s with queue := s.queue.atTime v.time } v.moment v.authorization v.call).2)
        (congrArg QueueConfig.backpressure hconfig |>.trans hreject) hrest
        (fun v' hv' => (htime.trans hnow).trans_le (hfirst v' hv'))
    exact ⟨_, s', .meanwhile (Queue.Move.wait s.queue v.time).moves (.visit hnow hserves)⟩

/-- **Callers do not notice the queue.** Two servers with the same service, but with queues that reject and
differ in whatever else, are visited at the same times. Then each of them answers every call in its time,
whatever else happens to its queue the answers are the same, and so is the service that is left, with its
store. -/
theorem callers_do_not_notice_the_queue {s : Service} {q q' : Queue} {visits : List Visit}
    (hreject : q.config.backpressure = .reject) (hreject' : q'.config.backpressure = .reject)
    (hordered : visits.Pairwise fun v v' => v.time ≤ v'.time)
    (hlater : ∀ v ∈ visits, q.publisher.now ≤ v.time ∧ q'.publisher.now ≤ v.time) :
    (∃ answers after, Serves ⟨s, q⟩ visits answers after) ∧
    (∃ answers after, Serves ⟨s, q'⟩ visits answers after) ∧
    ∀ answers after answers' after', Serves ⟨s, q⟩ visits answers after →
      Serves ⟨s, q'⟩ visits answers' after' →
      answers = answers' ∧ after.service = after'.service := by
  refine ⟨exists_serves hreject hordered fun v hv => (hlater v hv).1,
    exists_serves hreject' hordered fun v hv => (hlater v hv).2, ?_⟩
  intro answers after answers' after' hserves hserves'
  exact Prod.mk.inj (hserves.answers_eq.trans hserves'.answers_eq.symm)

/-! Two queues in trouble: in one the channel is full, the other is switched off and stopped. -/

def fullQueue : Queue := (Queue.narrowQueue .reject).run Queue.fourOffers

def stoppedQueue : Queue := (Queue.start (.idle none {} 0) {}).stop

/-- Ada creates a company at once, and somebody asks for it three milliseconds later. -/
def sampleVisits : List Visit :=
  [⟨0, adasTurn.moment, adasTurn.authorization, adasTurn.call⟩,
    ⟨3, sampleMoment, none, .get "07070707-0707-0707-0707-070707070707"⟩]

/-- One queue would refuse the event as full and the other as shutting down; the caller is told of the
creation by both servers, and both have the company afterwards. -/
theorem ada_does_not_notice_the_queue :
    ((fullQueue.notify (.ofCompany .created acme)).1 = .error .queueFull ∧
      (stoppedQueue.notify (.ofCompany .created acme)).1 = .error .shuttingDown) ∧
    ∃ answers after after', Serves (.inMemory sampleKey { users := [ada] } fullQueue) sampleVisits
        answers after ∧
      Serves (.inMemory sampleKey { users := [ada] } stoppedQueue) sampleVisits answers after' ∧
      answers.head? = some (.ok (.created "07070707-0707-0707-0707-070707070707")) ∧
      after.service.store.companies = [acme] ∧ after'.service.store = after.service.store := by
  have hreject : fullQueue.config.backpressure = .reject := by decide +kernel
  have hreject' : stoppedQueue.config.backpressure = .reject := rfl
  have hordered : sampleVisits.Pairwise fun v v' => v.time ≤ v'.time := by decide
  have hlater : ∀ v ∈ sampleVisits,
      fullQueue.publisher.now ≤ v.time ∧ stoppedQueue.publisher.now ≤ v.time := by decide +kernel
  obtain ⟨⟨answers, after, hserves⟩, ⟨answers', after', hserves'⟩, hsame⟩ :=
    callers_do_not_notice_the_queue (s := .inMemory sampleKey { users := [ada] }) hreject hreject'
      hordered hlater
  obtain ⟨rfl, hservice⟩ := hsame _ _ _ _ hserves hserves'
  have hcreated := Service.handle_of_commits (Service.commits_inMemory_iff.mpr adasTurn_makes)
  have hserved : (answers, after.service) =
      (Service.inMemory sampleKey { users := [ada] }).answers sampleVisits := hserves.answers_eq
  simp only [sampleVisits, Service.answers, hcreated] at hserved
  obtain ⟨rfl, hafter⟩ := Prod.mk.inj hserved
  refine ⟨⟨by decide +kernel, by decide +kernel⟩, _, _, _, hserves, hserves', by decide, ?_, ?_⟩
  · rw [hafter]
    rfl
  · rw [hservice]

end Rpc

end CompanyRegistry
