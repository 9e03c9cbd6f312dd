import CompanyRegistry.Proofs.Event.Conservation

/-!
# In which order events are written

`Dispatches` adds to moves in a row the events that the worker hands to the publisher on the way. What is
accepted is at every moment what was handed over, then what the worker holds, then the channel, in this
order (`InOrder`), so nothing overtakes on its way to the publisher. The publisher may end its writes in
another order, but not by much: with `m` slots the next write starts only when all but `m - 1` of the
earlier ones have ended, and with a single slot the attempts are the accepted events as they came
(`Single`).

`events_are_dispatched_in_order` puts this together for every run.
-/

namespace CompanyRegistry

/-- A publisher, switched on or off, that was not given anything yet. -/
def Publisher.idle (template : Option KeyTemplate) (w : Writer) (now : Nat) : Publisher :=
  { template, writer := w, now }

namespace Queue

/-! ### Handing over -/

/-- The event that the worker held before a move and has handed to the publisher by it. -/
def handedOver (q q' : Queue) : List Event := if q'.held.isNone then q.held.toList else []

/-- Moves in a row, with the events that they offer and those that they hand to the publisher. -/
inductive Dispatches : Queue → List Event → List Event → Queue → Prop
  | none (q : Queue) : Dispatches q [] [] q
  | next {q q' q'' : Queue} {es fs handed : List Event} :
      Dispatches q es handed q' → Move q' fs q'' →
        Dispatches q (es ++ fs) (handed ++ handedOver q' q'') q''

theorem Moves.dispatches {q q' : Queue} {es : List Event} (h : Moves q es q') :
    ∃ handed, Dispatches q es handed q' := by
  induction h with
  | none => exact ⟨[], .none _⟩
  | next _ hmove ih =>
    obtain ⟨handed, hbefore⟩ := ih
    exact ⟨_, .next hbefore hmove⟩

theorem Dispatches.moves {q q' : Queue} {es handed : List Event} (h : Dispatches q es handed q') :
    Moves q es q' := by
  induction h with
  | none => exact .none _
  | next _ hmove ih => exact .next ih hmove

/-- A worker that still holds what it held has handed over nothing. -/
theorem handedOver_of_held_eq {q q' : Queue} (h : q'.held = q.held) : handedOver q q' = [] := by
  unfold handedOver
  rw [h]
  cases q.held <;> rfl

theorem offer_held (q : Queue) (e : Event) : (q.offer e).held = q.held := by
  rcases offer_cases q e with ⟨-, h⟩ | ⟨-, -, h⟩ | ⟨-, -, -, h⟩ | ⟨-, -, -, h⟩ <;> rw [h] <;> rfl

/-- A move hands over what the worker holds, into a free slot, or nothing. -/
theorem Move.handedOver_cases {es : List Event} {q q' : Queue} (hmove : Move q es q') :
    (∃ e, q.held = some e ∧ q.publisher.flights.length < q.slots ∧ handedOver q q' = [e] ∧
      q' = { q with held := none, publisher := q.publisher.start e }) ∨
    handedOver q q' = [] := by
  cases hmove with
  | offer e => exact Or.inr (handedOver_of_held_eq (offer_held q e))
  | work hstep =>
    rcases workerStep_cases hstep with ⟨e, hheld, hfree, rfl⟩ | ⟨e, rest, hheld, -, rfl⟩ |
      ⟨-, -, -, -, rfl⟩
    · exact Or.inl ⟨e, hheld, hfree, by simp [handedOver, hheld], rfl⟩
    · exact Or.inr (by simp [handedOver])
    · exact Or.inr (handedOver_of_held_eq rfl)
  | land | wait | fail | delay | stop => exact Or.inr (handedOver_of_held_eq rfl)

@[simp] theorem letIn_config (q : Queue) : q.letIn.config = q.config := by
  unfold letIn
  split <;> rfl

theorem Move.config {es : List Event} {q q' : Queue} (hmove : Move q es q') :
    q'.config = q.config := by
  cases hmove with
  | offer e =>
    rcases offer_cases q e with ⟨-, h⟩ | ⟨-, -, h⟩ | ⟨-, -, -, h⟩ | ⟨-, -, -, h⟩ <;> rw [h] <;> rfl
  | work hstep =>
    rcases workerStep_cases hstep with ⟨e, -, -, rfl⟩ | ⟨e, rest, -, -, rfl⟩ | ⟨-, -, -, -, rfl⟩
    · rfl
    · rw [letIn_config]
    · rfl
  | land | wait | fail | delay | stop => rfl

theorem Moves.config {es : List Event} {q q' : Queue} (hmoves : Moves q es q') :
    q'.config = q.config :=
  hmoves.preserves (P := fun q' => q'.config = q.config) (fun hmove h => hmove.config.trans h) rfl

/-! ### The order -/

/-- Nothing overtakes on its way to the publisher, which has no more writes in flight than slots. -/
structure InOrder (handed : List Event) (q : Queue) : Prop where
  order : q.accepted = handed ++ (q.held.toList ++ q.channel)
  entrusted : q.publisher.entrusted.Perm handed
  flights : q.publisher.flights.length ≤ q.slots

theorem InOrder.letIn {handed : List Event} {q : Queue} (h : InOrder handed q) :
    InOrder handed q.letIn := by
  rcases letIn_cases q with ⟨-, heq⟩ | ⟨s, rest, -, heq⟩
  · exact heq.symm ▸ h
  · rw [heq]
    refine ⟨?_, h.entrusted, h.flights⟩
    simp [accept, h.order]

theorem inOrder_offer {handed : List Event} {q : Queue} (h : InOrder handed q) (e : Event) :
    InOrder handed (q.offer e) := by
  rcases offer_cases q e with ⟨-, heq⟩ | ⟨-, -, heq⟩ | ⟨-, -, -, heq⟩ | ⟨-, -, -, heq⟩
  · exact heq ▸ ⟨h.order, h.entrusted, h.flights⟩
  · rw [heq]
    refine ⟨?_, h.entrusted, h.flights⟩
    simp [accept, numbered, h.order]
  · exact heq ▸ ⟨h.order, h.entrusted, h.flights⟩
  · exact heq ▸ ⟨h.order, h.entrusted, h.flights⟩

theorem inOrder_start {handed : List Event} {q : Queue} {e : Event} (h : InOrder handed q)
    (hheld : q.held = some e) (hfree : q.publisher.flights.length < q.slots) :
    InOrder (handed ++ [e]) { q with held := none, publisher := q.publisher.start e } where
  order := by simp [h.order, hheld]
  entrusted := (Publisher.start_entrusted q.publisher e).trans (h.entrusted.append_right [e])
  flights := by
    rcases Publisher.start_cases q.publisher e with hstart | ⟨due, -, hstart⟩
    · rw [hstart, Publisher.finish_flights]
      exact h.flights
    · rw [hstart, List.length_append]
      exact hfree

theorem Move.inOrder {handed es : List Event} {q q' : Queue} (hmove : Move q es q')
    (h : InOrder handed q) : InOrder (handed ++ handedOver q q') q' := by
  rcases hmove.handedOver_cases with ⟨e, hheld, hfree, hhanded, rfl⟩ | hnone
  · rw [hhanded]
    exact inOrder_start h hheld hfree
  · rw [hnone, List.append_nil]
    cases hmove with
    | offer e => exact inOrder_offer h e
    | work hstep =>
      rcases workerStep_cases hstep with ⟨e, hheld, -, rfl⟩ | ⟨e, rest, hheld, hchannel, rfl⟩ |
        ⟨-, -, -, -, rfl⟩
      · simp [handedOver, hheld] at hnone
      · refine InOrder.letIn ⟨?_, h.entrusted, h.flights⟩
        simp [h.order, hheld, hchannel]
      · exact ⟨h.order, h.entrusted, h.flights⟩
    | land =>
      refine ⟨h.order, (Publisher.land_entrusted q.publisher).trans h.entrusted, ?_⟩
      have hfewer : q.landed.publisher.flights.length ≤ q.publisher.flights.length := by
        rw [landed, Publisher.land_flights]
        exact List.length_filter_le _ _
      exact Nat.le_trans hfewer h.flights
    | wait | fail | delay | stop => exact ⟨h.order, h.entrusted, h.flights⟩

theorem Dispatches.inOrder {q q' : Queue} {es handed : List Event}
    (hdispatches : Dispatches q es handed q') (h : InOrder [] q) : InOrder handed q' := by
  induction hdispatches with
  | none => exact h
  | next _ hmove ih => exact hmove.inOrder ih

theorem inOrder_idle (template : Option KeyTemplate) (w : Writer) (now : Nat) (config : QueueConfig) :
    InOrder [] (start (.idle template w now) config) :=
  ⟨rfl, List.Perm.refl _, Nat.zero_le _⟩

/-- What is handed over next is the first accepted event that was not, and no more of those before it
are in flight than leave a slot free. -/
theorem InOrder.next {handed es : List Event} {q q' : Queue} {e : Event} (h : InOrder handed q)
    (hmove : Move q es q') (hhanded : handedOver q q' = [e]) :
    q.accepted[handed.length]? = some e ∧
      (q.publisher.attempts.map (·.event)).Subperm (q.accepted.take handed.length) ∧
      handed.length + 1 ≤ q.publisher.attempts.length + q.slots := by
  rcases hmove.handedOver_cases with ⟨e', hheld, hfree, hhanded', -⟩ | hnone
  · obtain rfl : e' = e := List.singleton_injective (hhanded'.symm.trans hhanded)
    have htake : q.accepted.take handed.length = handed := by
      rw [h.order]
      exact List.take_left
    refine ⟨?_, ?_, ?_⟩
    · rw [h.order, hheld]
      simp
    · rw [htake]
      exact (List.sublist_append_left _ _).subperm.trans h.entrusted.subperm
    · have hlength := h.entrusted.length_eq
      simp only [Publisher.entrusted, List.length_append, List.length_map] at hlength
      omega
  · rw [hnone] at hhanded
    cases hhanded

/-! ### A single slot -/

/-- The publisher's writes end in the order in which they were started. -/
def Single (handed : List Event) (q : Queue) : Prop := q.publisher.entrusted = handed

theorem single_start {handed : List Event} {q : Queue} {e : Event} (h : Single handed q)
    (hnone : q.publisher.flights = []) :
    Single (handed ++ [e]) { q with held := none, publisher := q.publisher.start e } := by
  have hattempts : q.publisher.attempts.map (·.event) = handed := by
    simpa [Single, Publisher.entrusted, hnone] using h
  unfold Single Publisher.entrusted
  rcases Publisher.start_cases q.publisher e with hstart | ⟨due, -, hstart⟩
  · simp [hstart, Publisher.finish_events, hattempts, hnone]
  · simp [hstart, hattempts, hnone]

/-- A single write in flight lands or stays, and either way nothing changes its place. -/
theorem single_land {handed : List Event} {q : Queue} (h : Single handed q)
    (hone : q.publisher.flights.length ≤ 1) : Single handed q.landed := by
  unfold Single Publisher.entrusted at h ⊢
  rw [landed, Publisher.land_events, Publisher.land_flights, ← h]
  cases hflights : q.publisher.flights with
  | nil => simp [Publisher.dueFlights, hflights]
  | cons f more =>
    have halone : more = [] := by
      rw [hflights, List.length_cons] at hone
      exact List.eq_nil_of_length_eq_zero (by omega)
    subst halone
    by_cases hdue : f.due ≤ q.publisher.now
    · simp [Publisher.dueFlights, hflights, hdue]
    · simp [Publisher.dueFlights, hflights, hdue, Nat.lt_of_not_le hdue]

theorem Move.single {handed es : List Event} {q q' : Queue} (hmove : Move q es q')
    (hslots : q.slots = 1) (horder : InOrder handed q) (h : Single handed q) :
    Single (handed ++ handedOver q q') q' := by
  rcases hmove.handedOver_cases with ⟨e, -, hfree, hhanded, rfl⟩ | hnone
  · rw [hhanded]
    exact single_start h (List.eq_nil_of_length_eq_zero (by omega))
  · rw [hnone, List.append_nil]
    cases hmove with
    | offer e =>
      rcases offer_cases q e with ⟨-, heq⟩ | ⟨-, -, heq⟩ | ⟨-, -, -, heq⟩ | ⟨-, -, -, heq⟩ <;>
        rw [heq] <;> exact h
    | work hstep =>
      rcases workerStep_cases hstep with ⟨e, hheld, -, rfl⟩ | ⟨e, rest, -, -, rfl⟩ |
        ⟨-, -, -, -, rfl⟩
      · simp [handedOver, hheld] at hnone
      · unfold Single
        rw [letIn_publisher]
        exact h
      · exact h
    | land => exact single_land h (hslots ▸ horder.flights)
    | wait | fail | delay | stop => exact h

theorem Dispatches.single {q q' : Queue} {es handed : List Event}
    (hdispatches : Dispatches q es handed q') (hslots : q.slots = 1) (horder : InOrder [] q)
    (h : Single [] q) : Single handed q' := by
  induction hdispatches with
  | none => exact h
  | next hbefore hmove ih =>
    refine hmove.single ?_ (hbefore.inOrder horder) ih
    rw [slots, hbefore.moves.config]
    exact hslots

/-! ### Every run -/

/-- **Events are written in the order in which they are accepted.** In every run of a queue with `m`
slots, over a publisher that is switched on or off,

* the accepted events are those of the good answers, in the order of these, and what was handed to the
  publisher is a beginning of them: the worker's event and the channel follow;
* what was handed over is in flight or attempted;
* the event that is handed over next is the first accepted one that was not, and by then all earlier
  ones but `m - 1` have been attempted;
* with a single slot, the accepted events are, in this order, those attempted, in flight, with the worker
  and in the channel, and the writer has recorded exactly those whose attempt succeeded. -/
theorem events_are_dispatched_in_order (template : Option KeyTemplate) (w : Writer) (now : Nat)
    (config : QueueConfig) :
    (∀ actions : List Action, ∃ handed,
      Dispatches (start (.idle template w now) config) (actions.flatMap Action.offered) handed
        ((start (.idle template w now) config).run actions)) ∧
    ∀ {offered handed : List Event} {q : Queue},
      Dispatches (start (.idle template w now) config) offered handed q →
      q.accepted = q.granted offered ∧
      q.accepted = handed ++ (q.held.toList ++ q.channel) ∧
      (q.publisher.attempts.map (·.event) ++ q.publisher.flights.map (·.event)).Perm handed ∧
      (∀ es e q', Move q es q' → handedOver q q' = [e] →
        q.accepted[handed.length]? = some e ∧
        (q.publisher.attempts.map (·.event)).Subperm (q.accepted.take handed.length) ∧
        handed.length + 1 ≤ q.publisher.attempts.length + max 1 config.maxInFlight) ∧
      (max 1 config.maxInFlight = 1 →
        q.accepted = q.publisher.attempts.map (·.event) ++
          (q.publisher.flights.map (·.event) ++ (q.held.toList ++ q.channel)) ∧
        ∀ t, template = some t → q.publisher.writer.messages =
          w.messages ++ q.publisher.attempts.filterMap (Attempt.message? t)) := by
  refine ⟨fun actions => (run_moves _ actions).dispatches, ?_⟩
  intro offered handed q hdispatches
  have hmoves := hdispatches.moves
  have hanswers : Answers offered q := by simpa using hmoves.answers (answers_start _ config)
  have horder := hdispatches.inOrder (inOrder_idle template w now config)
  have hslots : q.slots = max 1 config.maxInFlight := by
    rw [slots, hmoves.config]
    rfl
  refine ⟨hanswers.grants, horder.order, horder.entrusted, ?_, ?_⟩
  · intro es e q' hmove hhanded
    exact hslots ▸ horder.next hmove hhanded
  · intro hone
    have hsingle : Single handed q :=
      hdispatches.single hone (inOrder_idle template w now config) rfl
    refine ⟨?_, ?_⟩
    · rw [horder.order, ← hsingle, Publisher.entrusted, List.append_assoc]
    · rintro t rfl
      exact (hmoves.writing (writing_start t w now config)).recorded

/-- The narrow queue with keys, so that its messages tell the company. -/
def keyedQueue : Queue :=
  start (.idle (some ⟨"", [.company]⟩) { delay := some 5 } 0) { capacity := 1, maxInFlight := 1 }

/-- Of three accepted events, the second is written while the writer fails. -/
def failingRun : List Action :=
  fourOffers ++ [.advance 5, .fail (some .timeout), .advance 5, .fail none, .advance 5]

/-- The narrow queue at the moment in which the write of the first event has ended. -/
def firstLanded : Queue := ((keyedQueue.run fourOffers).atTime 5).landed

/-- The second event is handed over when the first was attempted; and of the three events that are
attempted in their order, the writer has recorded the first and the third. -/
theorem keyedQueue_in_order :
    (∃ handed q', Dispatches keyedQueue (fourOffers.flatMap Action.offered) handed firstLanded ∧
      Move firstLanded [] q' ∧ handedOver firstLanded q' = [⟨"b", .created, []⟩] ∧
      firstLanded.accepted[handed.length]? = some ⟨"b", .created, []⟩ ∧
      handed.length + 1 ≤ firstLanded.publisher.attempts.length + 1) ∧
    (keyedQueue.run failingRun).accepted =
      (keyedQueue.run failingRun).publisher.attempts.map (·.event) ∧
    (keyedQueue.run failingRun).accepted.map (·.entity) = ["a", "b", "c"] ∧
    (keyedQueue.run failingRun).publisher.writer.messages.filterMap Message.keyText? = ["a", "c"] := by
  obtain ⟨hruns, hall⟩ := events_are_dispatched_in_order (some ⟨"", [.company]⟩) { delay := some 5 } 0
    { capacity := 1, maxInFlight := 1 }
  refine ⟨?_, ?_, by decide +kernel, ?_⟩
  · have hmoves : Moves keyedQueue (fourOffers.flatMap Action.offered) firstLanded :=
      ((run_moves keyedQueue fourOffers).andThen (Move.wait _ 5).moves).andThen (Move.land _).moves
    obtain ⟨handed, hdispatches⟩ := hmoves.dispatches
    have hnext : firstLanded.workerStep?.map (handedOver firstLanded) =
        some [⟨"b", .created, []⟩] := by decide +kernel
    obtain ⟨q', hstep, hhanded⟩ := Option.map_eq_some_iff.mp hnext
    obtain ⟨-, -, -, hstarts, -⟩ := hall hdispatches
    obtain ⟨hplace, -, hearlier⟩ := hstarts _ _ _ (.work hstep) hhanded
    exact ⟨handed, q', hdispatches, .work hstep, hhanded, hplace, hearlier⟩
  · obtain ⟨handed, hdispatches⟩ := hruns failingRun
    obtain ⟨-, -, -, -, hsingle⟩ := hall hdispatches
    have hempty : (keyedQueue.run failingRun).publisher.flights.map (·.event) ++
        ((keyedQueue.run failingRun).held.toList ++ (keyedQueue.run failingRun).channel) = [] := by
      decide +kernel
    exact (hsingle rfl).1.trans ((congrArg _ hempty).trans (List.append_nil _))
  · decide +kernel

end Queue

end CompanyRegistry
