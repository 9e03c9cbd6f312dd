import CompanyRegistry.Proofs.Event.Dispatch

/-!
# The bounds of a queue

`Bounded` is what every move keeps about the channel: it never outgrows its capacity, whether the events come
from senders that are accepted at once or from those that waited, and nobody waits for a queue that rejects.
Together with the slots of `InOrder` these are all bounds of a queue, and they hold before, during and
after a shutdown.

For a sender they say when it is refused as full (`queue_keeps_its_bounds`): by a queue that rejects exactly
when the channel is full, and by one that blocks never.
-/

namespace CompanyRegistry.Queue

/-- The channel is within its capacity, and only a queue that blocks has senders that wait. -/
structure Bounded (q : Queue) : Prop where
  channel : q.channel.length ≤ q.capacity
  waiting : q.config.backpressure = .reject → q.waiting = []

theorem bounded_offer {q : Queue} (h : Bounded q) (e : Event) : Bounded (q.offer e) := by
  rcases offer_cases q e with ⟨-, heq⟩ | ⟨-, ⟨hroom, -⟩, heq⟩ | ⟨-, -, -, heq⟩ | ⟨-, -, hblock, heq⟩
  · exact heq ▸ ⟨h.channel, h.waiting⟩
  · rw [heq]
    refine ⟨?_, h.waiting⟩
    rw [accept, List.length_append]
    exact hroom
  · exact heq ▸ ⟨h.channel, h.waiting⟩
  · rw [heq]
    refine ⟨h.channel, ?_⟩
    intro hreject
    cases hblock.symm.trans hreject

theorem bounded_work {q q' : Queue} (h : Bounded q) (hstep : q.workerStep? = some q') :
    Bounded q' := by
  rcases workerStep_cases hstep with ⟨e, -, -, rfl⟩ | ⟨e, rest, -, hchannel, rfl⟩ | ⟨-, -, -, -, rfl⟩
  · exact ⟨h.channel, h.waiting⟩
  · -- the worker makes room for one event, and at most one sender takes it
    have hless : rest.length + 1 ≤ q.capacity := by
      have hlength := h.channel
      rwa [hchannel, List.length_cons] at hlength
    rcases letIn_cases { q with held := some e, channel := rest } with
      ⟨-, heq⟩ | ⟨s, others, hwaiting, heq⟩
    · rw [heq]
      exact ⟨Nat.le_of_succ_le hless, h.waiting⟩
    · rw [heq]
      refine ⟨?_, ?_⟩
      · rw [accept, List.length_append]
        exact hless
      · intro hreject
        cases (h.waiting hreject).symm.trans hwaiting
  · exact ⟨h.channel, h.waiting⟩

theorem Move.bounded {es : List Event} {q q' : Queue} (hmove : Move q es q') (h : Bounded q) :
    Bounded q' := by
  cases hmove with
  | offer e => exact bounded_offer h e
  | work hstep => exact bounded_work h hstep
  | stop => exact ⟨h.channel, fun _ => rfl⟩
  | land | wait | fail | delay => exact ⟨h.channel, h.waiting⟩

theorem Moves.bounded {es : List Event} {q q' : Queue} (hmoves : Moves q es q') (h : Bounded q) :
    Bounded q' :=
  hmoves.preserves Move.bounded h

theorem bounded_start (p : Publisher) (config : QueueConfig) : Bounded (start p config) :=
  ⟨Nat.zero_le _, fun _ => rfl⟩

/-- A worker that still holds an event when the queue has settled waits for all the slots: none was lost. -/
theorem InOrder.flights_eq_slots {handed : List Event} {q : Queue} (h : InOrder handed q)
    (hsettled : q.Settled) (hheld : q.held ≠ none) : q.publisher.flights.length = q.slots := by
  rcases hsettled.cases with ⟨-, hfull⟩ | ⟨hnone, -⟩
  · exact Nat.le_antisymm h.flights hfull
  · exact absurd hnone hheld

/-! ### Queues that are not shut down -/

theorem offer_stopped (q : Queue) (e : Event) : (q.offer e).stopped = q.stopped := by
  rcases offer_cases q e with ⟨-, heq⟩ | ⟨-, -, heq⟩ | ⟨-, -, -, heq⟩ | ⟨-, -, -, heq⟩
  all_goals
    rw [heq]
    rfl

theorem workerStep_stopped {q q' : Queue} (h : q.workerStep? = some q') : q'.stopped = q.stopped := by
  rcases workerStep_cases h with ⟨e, -, -, rfl⟩ | ⟨e, rest, -, -, rfl⟩ | ⟨-, -, -, -, rfl⟩
  · rfl
  · rcases letIn_cases { q with held := some e, channel := rest } with ⟨-, heq⟩ | ⟨s, others, -, heq⟩
    · rw [heq]
    · rw [heq]
      rfl
  · rfl

theorem work_stopped (fuel : Nat) (q : Queue) : (work fuel q).stopped = q.stopped := by
  induction fuel generalizing q with
  | zero => rfl
  | succ fuel ih =>
    unfold work
    split
    · rename_i q' hstep
      exact (ih q').trans (workerStep_stopped hstep)
    · rfl

theorem settle_stopped (q : Queue) : q.settle.stopped = q.stopped :=
  work_stopped q.landed.pendingSteps q.landed

theorem atDeadline_stopped (q : Queue) (deadline : Option Nat) :
    (q.atDeadline deadline).stopped = q.stopped := by
  cases deadline <;> rfl

theorem runUntil_stopped (holds : Queue → Bool) (fuel : Nat) (q : Queue) (deadline : Option Nat) :
    (runUntil holds fuel q deadline).2.stopped = q.stopped := by
  induction fuel generalizing q with
  | zero => exact atDeadline_stopped q deadline
  | succ fuel ih =>
    unfold runUntil
    split
    · rfl
    · split
      · split
        · exact (ih _).trans (settle_stopped _)
        · exact atDeadline_stopped q deadline
      · exact atDeadline_stopped q deadline

theorem notify_stopped (q : Queue) (e : Event) : (q.notify e).2.stopped = q.stopped := by
  unfold notify
  dsimp only
  split
  · exact offer_stopped q e
  · exact (runUntil_stopped _ _ _ _).trans ((settle_stopped _).trans (offer_stopped q e))

theorem act_stopped (q : Queue) {a : Action} (h : ∀ ms, a ≠ .shutdown ms) :
    (q.act a).stopped = q.stopped := by
  cases a with
  | notify e => exact notify_stopped q e
  | offer e => exact offer_stopped q e
  | fail | delay => rfl
  | advance ms => exact (settle_stopped _).trans ((runUntil_stopped _ _ _ _).trans (settle_stopped q))
  | settle => exact settle_stopped q
  | shutdown ms => exact absurd rfl (h ms)

/-- Only a shutdown stops a queue. -/
theorem run_stopped (q : Queue) {actions : List Action} (h : ∀ ms, .shutdown ms ∉ actions) :
    (q.run actions).stopped = q.stopped := by
  induction actions generalizing q with
  | nil => rfl
  | cons a actions ih =>
    have hfirst : ∀ ms, a ≠ .shutdown ms := by
      rintro ms rfl
      exact h ms List.mem_cons_self
    have hrest : ∀ ms, .shutdown ms ∉ actions := fun ms hms => h ms (List.mem_cons_of_mem a hms)
    exact (ih (q.act a) hrest).trans (act_stopped q hfirst)

/-! ### When a sender is refused as full -/

theorem notify_of_answer {q : Queue} {e : Event} {answer : Except NotifyError Unit}
    (h : (q.offer e).answer? q.nextTicket = some answer) : q.notify e = (answer, q.offer e) := by
  simp only [notify, h]

/-- An open queue that rejects answers at once, by nothing but the number of events in its channel. -/
theorem Bounded.offer_answer {offered : List Event} {q : Queue} (h : Bounded q)
    (hanswers : Answers offered q) (hreject : q.config.backpressure = .reject)
    (hopen : q.stopped = false) (e : Event) :
    (q.offer e).answer? q.nextTicket =
      some (if q.channel.length = q.capacity then .error .queueFull else .ok ()) := by
  rw [(answers_offer hanswers e).answer?_eq_some_iff]
  rcases offer_cases q e with ⟨hstopped, -⟩ | ⟨-, ⟨hroom, -⟩, heq⟩ | ⟨-, hfull, -, heq⟩ |
    ⟨-, -, hblock, -⟩
  · cases hopen.symm.trans hstopped
  · rw [heq, if_neg (Nat.ne_of_lt hroom)]
    exact List.mem_append_right _ (List.mem_singleton.mpr rfl)
  · have hle : q.capacity ≤ q.channel.length :=
      Nat.le_of_not_lt fun hroom => hfull ⟨hroom, h.waiting hreject⟩
    rw [heq, if_pos (Nat.le_antisymm h.channel hle)]
    exact List.mem_append_right _ (List.mem_singleton.mpr rfl)
  · cases hreject.symm.trans hblock

/-- No sender was refused as full. -/
def NeverFull (q : Queue) : Prop := ∀ a ∈ q.answered, a.2 ≠ .error .queueFull

theorem NeverFull.append {q q' : Queue} {answers : List (Nat × Except NotifyError Unit)}
    (h : NeverFull q) (hanswers : ∀ a ∈ answers, a.2 ≠ .error .queueFull)
    (heq : q'.answered = q.answered ++ answers) : NeverFull q' := by
  intro a ha
  rw [heq] at ha
  exact (List.mem_append.mp ha).elim (h a) (hanswers a)

theorem Move.neverFull {es : List Event} {q q' : Queue} (hmove : Move q es q')
    (hblock : q.config.backpressure = .block) (h : NeverFull q) : NeverFull q' := by
  cases hmove with
  | offer e =>
    rcases offer_cases q e with ⟨-, heq⟩ | ⟨-, -, heq⟩ | ⟨-, -, hreject, -⟩ | ⟨-, -, -, heq⟩
    · exact heq ▸ h.append (by simp) rfl
    · exact heq ▸ h.append (by simp) rfl
    · cases hblock.symm.trans hreject
    · exact heq ▸ h
  | work hstep =>
    rcases workerStep_cases hstep with ⟨e, -, -, rfl⟩ | ⟨e, rest, -, -, rfl⟩ | ⟨-, -, -, -, rfl⟩
    · exact h
    · rcases letIn_cases { q with held := some e, channel := rest } with ⟨-, heq⟩ | ⟨s, others, -, heq⟩
      · rw [heq]
        exact h
      · exact heq ▸ h.append (by simp) rfl
    · exact h
  | stop => exact h.append (by simp) rfl
  | land | wait | fail | delay => exact h

theorem Moves.neverFull {es : List Event} {q q' : Queue} (hmoves : Moves q es q')
    (hblock : q.config.backpressure = .block) (h : NeverFull q) : NeverFull q' := by
  induction hmoves with
  | none => exact h
  | next hbefore hmove ih =>
    exact hmove.neverFull ((congrArg QueueConfig.backpressure hbefore.config).trans hblock) ih

theorem NeverFull.answer?_ne {q : Queue} (h : NeverFull q) (ticket : Nat) :
    q.answer? ticket ≠ some (.error .queueFull) := by
  intro hanswer
  obtain ⟨before, after, heq, -⟩ := List.lookup_eq_some_iff.mp hanswer
  exact h (ticket, .error .queueFull) (by simp [heq]) rfl

/-- What `notify` returns is an answer that was given, or the one for a queue that shuts down. -/
theorem notify_fst_cases (q : Queue) (e : Event) :
    (∃ q', Moves q [e] q' ∧ q'.answer? q.nextTicket = some (q.notify e).1) ∨
      (q.notify e).1 = .error .shuttingDown := by
  have hoffer : Moves q [e] (q.offer e) := (Move.offer q e).moves
  unfold notify
  dsimp only
  split
  · rename_i answer hanswer
    exact Or.inl ⟨_, hoffer, hanswer⟩
  · have hwait := hoffer.andThen ((runUntil_moves (fun q' => (q'.answer? q.nextTicket).isSome)
      ((q.offer e).settle.unfinished + 1) (q.offer e).settle none).after (settle_moves _))
    revert hwait
    generalize (runUntil _ _ (q.offer e).settle none).2 = q'
    intro hwait
    cases hanswer : q'.answer? q.nextTicket with
    | none => exact Or.inr rfl
    | some answer => exact Or.inl ⟨q', hwait, hanswer⟩

/-- **A queue keeps its bounds.** In every run of a queue, over a publisher that is switched on or off, open or
stopped,

* the channel holds at most `max 1 capacity` events, the worker at most one, and at most
  `max 1 maxInFlight` writes are in flight; and none of these slots is ever lost: a worker that still
  holds its event in a settled queue waits for that many writes;
* a queue is open as long as it is not shut down, and an open queue that rejects answers every sender at once: it
  refuses it as full if the channel holds exactly `max 1 capacity` events, and accepts its event otherwise;
* a queue that blocks refuses nobody as full, open or stopped. -/
theorem queue_keeps_its_bounds (template : Option KeyTemplate) (w : Writer) (now : Nat)
    (config : QueueConfig) :
    (∀ actions : List Action,
      Moves (start (.idle template w now) config) (actions.flatMap Action.offered)
        ((start (.idle template w now) config).run actions) ∧
      ((∀ ms, .shutdown ms ∉ actions) →
        ((start (.idle template w now) config).run actions).stopped = false)) ∧
    ∀ {offered : List Event} {q : Queue}, Moves (start (.idle template w now) config) offered q →
      q.channel.length ≤ max 1 config.capacity ∧
      q.held.toList.length ≤ 1 ∧
      q.publisher.flights.length ≤ max 1 config.maxInFlight ∧
      (q.settle.held ≠ none → q.settle.publisher.flights.length = max 1 config.maxInFlight) ∧
      (config.backpressure = .reject → q.stopped = false → ∀ e,
        (q.notify e).1 =
          (if q.channel.length = max 1 config.capacity then .error .queueFull else .ok ()) ∧
        (q.offer e).answer? offered.length = some (q.notify e).1) ∧
      (config.backpressure = .block →
        (∀ ticket, q.answer? ticket ≠ some (.error .queueFull)) ∧
        ∀ e, (q.notify e).1 ≠ .error .queueFull) := by
  refine ⟨fun actions => ⟨run_moves _ actions, run_stopped _⟩, ?_⟩
  intro offered q hmoves
  have hconfig : q.config = config := hmoves.config
  have hanswers : Answers offered q := by simpa using hmoves.answers (answers_start _ config)
  have hbounded : Bounded q := hmoves.bounded (bounded_start _ config)
  have hslots : ∀ {es q'}, Moves (start (.idle template w now) config) es q' →
      q'.slots = max 1 config.maxInFlight := by
    intro es q' hmoves'
    rw [slots, hmoves'.config]
    rfl
  have hcapacity : q.capacity = max 1 config.capacity := by rw [capacity, hconfig]
  have horder : ∀ {es q'}, Moves (start (.idle template w now) config) es q' →
      ∃ handed, InOrder handed q' := by
    intro es q' hmoves'
    obtain ⟨handed, hdispatches⟩ := hmoves'.dispatches
    exact ⟨handed, hdispatches.inOrder (inOrder_idle template w now config)⟩
  have hsettle := hmoves.andThen (settle_moves q)
  refine ⟨hcapacity ▸ hbounded.channel, ?_, ?_, ?_, ?_, ?_⟩
  · cases q.held <;> simp
  · obtain ⟨handed, h⟩ := horder hmoves
    exact hslots hmoves ▸ h.flights
  · intro hheld
    obtain ⟨handed, h⟩ := horder hsettle
    exact hslots hsettle ▸ h.flights_eq_slots (settle_settled q) hheld
  · intro hreject hopen e
    have hanswer := hbounded.offer_answer hanswers (hconfig ▸ hreject) hopen e
    rw [notify_of_answer hanswer, ← hanswers.tickets, ← hcapacity]
    exact ⟨rfl, hanswer⟩
  · intro hblock
    have hnever : ∀ {es q'}, Moves (start (.idle template w now) config) es q' → NeverFull q' :=
      fun hmoves' => hmoves'.neverFull hblock (fun _ ha => absurd ha List.not_mem_nil)
    refine ⟨(hnever hmoves).answer?_ne, ?_⟩
    intro e hfull
    rcases notify_fst_cases q e with ⟨q', hmoves', hanswer⟩ | hdown
    · rw [hfull] at hanswer
      exact (hnever (hmoves.trans hmoves')).answer?_ne _ hanswer
    · cases hdown.symm.trans hfull

/-- With one event in flight and one with the worker, the narrow queue takes a third and refuses a fourth;
if it blocks, the fourth waits, and is not refused as full when the queue is stopped either. -/
theorem narrowQueue_bounds :
    (((narrowQueue .reject).run (fourOffers.take 4)).channel.length = 0 ∧
      ((narrowQueue .reject).run (fourOffers.take 4)).stopped = false ∧
      (((narrowQueue .reject).run (fourOffers.take 4)).notify ⟨"c", .created, []⟩).1 = .ok ()) ∧
    (((narrowQueue .reject).run fourOffers).channel.length = 1 ∧
      ((narrowQueue .reject).run fourOffers).stopped = false ∧
      (((narrowQueue .reject).run fourOffers).notify ⟨"e", .created, []⟩).1 = .error .queueFull ∧
      ((narrowQueue .reject).run fourOffers).settle.publisher.flights.length = 1) ∧
    (((narrowQueue .block).run fourOffers).answer? 3 = none ∧
      (((narrowQueue .block).run fourOffers).notify ⟨"e", .created, []⟩).1 ≠ .error .queueFull ∧
      ((narrowQueue .block).run fourOffers).stop.answer? 3 ≠ some (.error .queueFull)) := by
  have hrejects := queue_keeps_its_bounds (some ⟨"", []⟩) { delay := some 5 } 0
    { capacity := 1, backpressure := .reject, maxInFlight := 1 }
  have hblocks := queue_keeps_its_bounds (some ⟨"", []⟩) { delay := some 5 } 0
    { capacity := 1, backpressure := .block, maxInFlight := 1 }
  have hroom : ((narrowQueue .reject).run (fourOffers.take 4)).channel.length = 0 := by decide +kernel
  have hfull : ((narrowQueue .reject).run fourOffers).channel.length = 1 := by decide +kernel
  have hopen : ((narrowQueue .reject).run (fourOffers.take 4)).stopped = false :=
    (hrejects.1 _).2 (by simp [fourOffers])
  have hopen' : ((narrowQueue .reject).run fourOffers).stopped = false :=
    (hrejects.1 _).2 (by simp [fourOffers])
  have hheld : ((narrowQueue .reject).run fourOffers).settle.held ≠ none := by decide +kernel
  have hblocked : Moves (narrowQueue .block) (fourOffers.flatMap Action.offered)
      ((narrowQueue .block).run fourOffers) := (hblocks.1 fourOffers).1
  refine ⟨⟨hroom, hopen, ?_⟩, ⟨hfull, hopen', ?_, ?_⟩, by decide +kernel, ?_, ?_⟩
  · obtain ⟨-, -, -, -, hreject, -⟩ := hrejects.2 (hrejects.1 (fourOffers.take 4)).1
    have hless := ne_of_eq_of_ne hroom Nat.zero_ne_one
    exact (hreject rfl hopen _).1.trans (if_neg hless)
  · obtain ⟨-, -, -, -, hreject, -⟩ := hrejects.2 (hrejects.1 fourOffers).1
    exact (hreject rfl hopen' _).1.trans (if_pos hfull)
  · obtain ⟨-, -, -, hslots, -⟩ := hrejects.2 (hrejects.1 fourOffers).1
    exact hslots hheld
  · exact ((hblocks.2 hblocked).2.2.2.2.2 rfl).2 _
  · exact ((hblocks.2 (hblocked.andThen (Move.stop _).moves)).2.2.2.2.2 rfl).1 3

end CompanyRegistry.Queue
