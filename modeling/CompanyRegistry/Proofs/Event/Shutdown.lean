import CompanyRegistry.Proofs.Event.Conservation
import CompanyRegistry.Proofs.Event.Progress

/-!
# Shutting a queue down

`shutdown_hands_over`: a shutdown is over by its deadline; if it succeeds, nothing is left to do; from its
start on every new event is refused and every waiting sender answered; and whatever its answer, each
event accepted before it is attempted once, as long as time goes on.

What was accepted is fixed by the stop that a shutdown begins with (`granted_after_stop`), and conservation
says where it is; the rest is the progress of a stopped queue.
-/

namespace CompanyRegistry.Queue

/-! ### Waits and the clock -/

/-- A wait that succeeds ends where its condition holds. -/
theorem runUntil_true (holds : Queue → Bool) (fuel : Nat) (q : Queue) (deadline : Option Nat)
    (h : (runUntil holds fuel q deadline).1 = true) :
    holds (runUntil holds fuel q deadline).2 = true := by
  induction fuel generalizing q with
  | zero => cases h
  | succ fuel ih =>
    unfold runUntil at h ⊢
    split at h
    · rename_i hholds
      rw [if_pos hholds]
      exact hholds
    · rename_i hholds
      rw [if_neg hholds]
      split at h
      · split at h
        · rename_i hbefore
          rw [if_pos hbefore]
          exact ih _ h
        · cases h
      · cases h

/-- A wait does not outlast its deadline. -/
theorem runUntil_now_le (holds : Queue → Bool) (fuel : Nat) (q : Queue) (t : Nat)
    (h : q.publisher.now ≤ t) : (runUntil holds fuel q (some t)).2.publisher.now ≤ t := by
  have hdeadline : ∀ {q : Queue}, q.publisher.now ≤ t →
      (q.atDeadline (some t)).publisher.now ≤ t := fun h => Nat.max_le.mpr ⟨h, Nat.le_refl _⟩
  induction fuel generalizing q with
  | zero => exact hdeadline h
  | succ fuel ih =>
    unfold runUntil
    split
    · exact h
    · split
      · rename_i d _
        split
        · rename_i hbefore
          refine ih _ ?_
          rw [settle_now]
          exact Nat.max_le.mpr ⟨h, Nat.le_of_lt (by simpa [isBefore] using hbefore)⟩
        · exact hdeadline h
      · exact hdeadline h

/-- A wait for nothing lasts until its deadline. -/
theorem le_runUntil_never_now (fuel : Nat) (q : Queue) (t : Nat) :
    t ≤ (runUntil (fun _ => false) fuel q (some t)).2.publisher.now := by
  have hdeadline : ∀ q : Queue, t ≤ (q.atDeadline (some t)).publisher.now := fun _ =>
    Nat.le_max_right _ _
  induction fuel generalizing q with
  | zero => exact hdeadline q
  | succ fuel ih =>
    unfold runUntil
    split
    · contradiction
    · split
      · split
        · exact ih _
        · exact hdeadline q
      · exact hdeadline q

/-- Time passes by exactly the amount that it is let pass. -/
theorem advance_now (q : Queue) (ms : Nat) :
    (q.advance ms).publisher.now = q.publisher.now + ms := by
  unfold advance
  dsimp only
  rw [settle_now, settle_now]
  refine Nat.le_antisymm ?_ (le_runUntil_never_now _ _ _)
  exact runUntil_now_le _ _ _ _ (by rw [settle_now]; omega)

theorem shutdown_now_le (q : Queue) (ms : Nat) :
    (q.shutdown ms).2.publisher.now ≤ q.publisher.now + ms := by
  unfold shutdown
  dsimp only
  split
  · exact Nat.le_add_right _ _
  · have hnow : q.stop.settle.publisher.now = q.publisher.now := settle_now q.stop
    rw [hnow]
    exact runUntil_now_le _ _ _ _ (by omega)

theorem isDrained_of_shutdown {q : Queue} {ms : Nat} (h : (q.shutdown ms).1 = true) :
    (q.shutdown ms).2.isDrained = true := by
  unfold shutdown at h ⊢
  dsimp only at h ⊢
  split at h
  · cases h
  · rename_i hms
    rw [if_neg hms]
    exact runUntil_true _ _ _ _ h

/-! ### What a shutdown settles -/

/-- Nothing is left of some accepted events: each had its one attempt. -/
structure AllAttempted (accepted : List Event) (q : Queue) : Prop where
  channel : q.channel = []
  held : q.held = none
  flights : q.publisher.flights = []
  attempts : accepted.Perm (q.publisher.attempts.map (·.event))

theorem allAttempted_of_length {q : Queue} {accepted : List Event} (h : accepted.Perm q.places)
    (hle : accepted.length ≤ q.publisher.attempts.length) : AllAttempted accepted q := by
  have hlength := h.length_eq
  simp only [places, List.length_append, List.length_map] at hlength
  have hchannel : q.channel = [] := List.eq_nil_of_length_eq_zero (by omega)
  have hheld : q.held.toList = [] := List.eq_nil_of_length_eq_zero (by omega)
  have hflights : q.publisher.flights = [] := List.eq_nil_of_length_eq_zero (by omega)
  refine ⟨hchannel, by simpa using hheld, hflights, ?_⟩
  simpa [places, hchannel, hheld, hflights] using h

theorem allAttempted_of_isDrained {q : Queue} (hplaced : Placed q) {accepted : List Event}
    (h : accepted.Perm q.places) (hdrained : q.isDrained = true) : AllAttempted accepted q := by
  simp only [isDrained, Bool.and_eq_true, List.isEmpty_iff] at hdrained
  obtain ⟨hended, hflights⟩ := hdrained
  obtain ⟨-, hheld, hchannel⟩ := hplaced.ended hended
  refine ⟨hchannel, hheld, hflights, ?_⟩
  simpa [places, hchannel, hheld, hflights] using h

/-- What a queue has accepted when it is stopped is what it has accepted ever after. -/
theorem granted_after_stop {offered es : List Event} {q q' : Queue} (h : Answers offered q)
    (hmoves : Moves q.stop es q') : q'.granted (offered ++ es) = q.granted offered := by
  rw [← (hmoves.answers (answers_stop h)).grants, (hmoves.closed (closed_stop q)).2, ← h.grants]
  rfl

theorem perm_places_after_stop {offered es : List Event} {q q' : Queue} (h : Answers offered q)
    (hplaced : Placed q) (hmoves : Moves q.stop es q') : (q.granted offered).Perm q'.places := by
  rw [← granted_after_stop h hmoves]
  exact granted_perm_places (hmoves.answers (answers_stop h))
    (hmoves.placed ((Move.stop q).placed hplaced))

/-- A ticket that is not answered when the queue is stopped is refused by the stop. -/
theorem answer?_stop {offered : List Event} {q : Queue} (h : Answers offered q) {ticket : Nat}
    (hlt : ticket < offered.length) (hnone : q.answer? ticket = none) :
    q.stop.answer? ticket = some (.error .shuttingDown) := by
  have hticket := h.once.mem_iff.mpr (List.mem_range.mpr hlt)
  rw [(answers_stop h).answer?_eq_some_iff]
  rcases List.mem_append.mp hticket with hanswered | hwaiting
  · obtain ⟨⟨_, answer⟩, hmem, rfl⟩ := List.mem_map.mp hanswered
    rw [h.answer?_eq_some_iff.mpr hmem] at hnone
    cases hnone
  · obtain ⟨s, hs, rfl⟩ := List.mem_map.mp hwaiting
    exact List.mem_append_right _ (List.mem_map.mpr ⟨s, hs, rfl⟩)

theorem allAttempted_of_shutdown {offered : List Event} {q : Queue} (hanswers : Answers offered q)
    (hplaced : Placed q) {ms : Nat} (htrue : (q.shutdown ms).1 = true) :
    (q.shutdown ms).2.workerEnded = true ∧
      AllAttempted (q.granted offered) (q.shutdown ms).2 := by
  have hdrained := isDrained_of_shutdown htrue
  have hplaced' := (shutdown_moves q ms).placed hplaced
  have hperm := perm_places_after_stop hanswers hplaced (shutdown_moves_stop q ms)
  refine ⟨?_, allAttempted_of_isDrained hplaced' hperm hdrained⟩
  simp only [isDrained, Bool.and_eq_true] at hdrained
  exact hdrained.1

/-- After a stop, an event is refused at once and gets nowhere. -/
theorem refused_after_stop {offered es : List Event} {q q' : Queue} (hanswers : Answers offered q)
    (hmoves : Moves q.stop es q') (e : Event) :
    q'.notify e = (.error .shuttingDown, q'.offer e) ∧
      (q'.offer e).answer? (offered ++ es).length = some (.error .shuttingDown) ∧
      (q'.offer e).places = q'.places := by
  have hanswers' := hmoves.answers (answers_stop hanswers)
  have hclosed := (hmoves.closed (closed_stop q)).1
  obtain ⟨hnotify, hrefused⟩ := hclosed.notify_eq hanswers' e
  refine ⟨hnotify, hanswers'.tickets ▸ hrefused, ?_⟩
  rw [hclosed.offer_eq e]
  rfl

/-- Whatever a shutdown answered, every accepted event is attempted while time goes on. -/
theorem eventually_allAttempted {offered : List Event} {q : Queue} (hanswers : Answers offered q)
    (hplaced : Placed q) {ms : Nat} {actions : Nat → Action}
    (hpasses : ∀ T, ∃ n, T ≤ ((q.shutdown ms).2.stateAt actions n).publisher.now) :
    ∃ n, ∀ k, n ≤ k → AllAttempted (q.granted offered) ((q.shutdown ms).2.stateAt actions k) := by
  have hshutdown := shutdown_moves_stop q ms
  have hclosed := hshutdown.closed (closed_stop q)
  obtain ⟨n, hn⟩ := eventually_attempted hclosed.1 (hshutdown.answers (answers_stop hanswers))
    ((shutdown_moves q ms).placed hplaced) hpasses
  refine ⟨n, ?_⟩
  intro k hnk
  -- nothing is accepted after the stop, so as many attempts as accepted events are all of them
  have hk := (stateAt_moves (q.shutdown ms).2 actions k).after hshutdown
  refine allAttempted_of_length (perm_places_after_stop hanswers hplaced hk) ?_
  calc (q.granted offered).length
      = (q.shutdown ms).2.accepted.length := by
        rw [hclosed.2, ← hanswers.grants]
        rfl
    _ ≤ ((q.shutdown ms).2.stateAt actions k).publisher.attempts.length := hn k hnk

/-- **A shutdown ends by its deadline and discards nothing.** From any moment of any run, and for any
deadline:

* the shutdown is over by its deadline, and if it succeeds, the worker has ended and every accepted
  event has had its one attempt;
* from its start on, a new event is refused at once and gets nowhere, a sender that was still waiting
  is refused, other answers stay as they were, and the events of the queue are exactly those accepted
  before;
* while time goes on, whatever else is done, every accepted event is attempted once, no matter what the
  shutdown answered. -/
theorem shutdown_hands_over (t : KeyTemplate) (w : Writer) (now : Nat) (config : QueueConfig)
    (offered : List Event) (q : Queue)
    (hmoves : Moves (start (.fresh t w now) config) offered q) (ms : Nat) :
    (q.shutdown ms).2.publisher.now ≤ q.publisher.now + ms ∧
    ((q.shutdown ms).1 = true →
      (q.shutdown ms).2.workerEnded = true ∧
        AllAttempted (q.granted offered) (q.shutdown ms).2) ∧
    Moves q.stop [] (q.shutdown ms).2 ∧
    (∀ es q', Moves q.stop es q' →
      (∀ e, q'.notify e = (.error .shuttingDown, q'.offer e) ∧
        (q'.offer e).answer? (offered ++ es).length = some (.error .shuttingDown) ∧
        (q'.offer e).places = q'.places) ∧
      (∀ ticket, ticket < offered.length → q.answer? ticket = none →
        q'.answer? ticket = some (.error .shuttingDown)) ∧
      (∀ ticket answer, q.answer? ticket = some answer → q'.answer? ticket = some answer) ∧
      q'.granted (offered ++ es) = q.granted offered ∧
      (q.granted offered).Perm q'.places) ∧
    ∀ actions : Nat → Action,
      (∀ T, ∃ n, T ≤ ((q.shutdown ms).2.stateAt actions n).publisher.now) →
      ∃ n, ∀ k, n ≤ k →
        AllAttempted (q.granted offered) ((q.shutdown ms).2.stateAt actions k) := by
  have hanswers : Answers offered q := by simpa using hmoves.answers (answers_start _ config)
  have hplaced : Placed q := hmoves.placed (placed_start t w now config)
  refine ⟨shutdown_now_le q ms, allAttempted_of_shutdown hanswers hplaced, shutdown_moves_stop q ms,
    ?_, fun actions => eventually_allAttempted hanswers hplaced⟩
  intro es q' hmoves'
  refine ⟨refused_after_stop hanswers hmoves', ?_, ?_, granted_after_stop hanswers hmoves',
    perm_places_after_stop hanswers hplaced hmoves'⟩
  · intro ticket hlt hnone
    exact hmoves'.answer?_eq_some (answers_stop hanswers) (answer?_stop hanswers hlt hnone)
  · intro ticket answer hanswer
    have hstop : Moves q [] q.stop := (Move.stop q).moves
    exact (hmoves'.after hstop).answer?_eq_some hanswers hanswer

/-- A narrow queue that blocks, stopped while one write is in flight and one sender waits: three
milliseconds are too few and a hundred are enough, and either way three of the four events are attempted
and the waiting one is refused. -/
theorem narrowQueue_shutdown :
    ((((narrowQueue .block).run fourOffers).shutdown 3).1 = false ∧
      (((narrowQueue .block).run fourOffers).shutdown 100).1 = true ∧
      ((narrowQueue .block).run fourOffers).answer? 3 = none) ∧
    (((narrowQueue .block).run fourOffers).shutdown 3).2.answer? 3 = some (.error .shuttingDown) ∧
    AllAttempted (["a", "b", "c"].map fun entity => ⟨entity, .created, []⟩)
      (((narrowQueue .block).run fourOffers).shutdown 100).2 ∧
    ∃ n, ∀ k, n ≤ k → AllAttempted (["a", "b", "c"].map fun entity => ⟨entity, .created, []⟩)
      ((((narrowQueue .block).run fourOffers).shutdown 3).2.stateAt (fun _ => .advance 1) k) := by
  have hmoves : Moves (narrowQueue .block) (fourOffers.flatMap Action.offered)
      ((narrowQueue .block).run fourOffers) := run_moves _ _
  have hshort := shutdown_hands_over _ _ _ _ _ _ hmoves 3
  have hlong := shutdown_hands_over _ _ _ _ _ _ hmoves 100
  have hnone : ((narrowQueue .block).run fourOffers).answer? 3 = none := by
    decide +kernel
  have htrue : (((narrowQueue .block).run fourOffers).shutdown 100).1 = true := by decide +kernel
  have hgranted : ((narrowQueue .block).run fourOffers).granted
      (fourOffers.flatMap Action.offered) =
        ["a", "b", "c"].map fun entity => ⟨entity, .created, []⟩ := by decide +kernel
  have hpasses : ∀ (q : Queue) T,
      ∃ n, T ≤ (q.stateAt (fun _ => .advance 1) n).publisher.now := by
    refine fun q T => ⟨T, ?_⟩
    induction T with
    | zero => exact Nat.zero_le _
    | succ n ih =>
      rw [stateAt, act, advance_now]
      omega
  refine ⟨⟨by decide +kernel, htrue, hnone⟩, ?_, ?_, ?_⟩
  · exact (hshort.2.2.2.1 _ _ hshort.2.2.1).2.1 3 (by decide) hnone
  · exact hgranted ▸ (hlong.2.1 htrue).2
  · exact hgranted ▸ hshort.2.2.2.2 _ (hpasses _)

end CompanyRegistry.Queue
