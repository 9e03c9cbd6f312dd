import CompanyRegistry.Proofs.Event.Accounts

/-!
# How moves drive the writes

Along moves the clock never runs back, the attempts never become fewer, and a write in flight stays there
until an attempt is added (`Moves.onward`). A stopped queue without waiting senders stays so, accepts
nothing (`Moves.closed`), and lets its clock move only in an action that settles it first
(`settle_moves_of_now_lt`). Together: a stopped queue whose time goes on makes every attempt that is due
(`eventually_attempted`).
-/

namespace CompanyRegistry

namespace Publisher

theorem start_attempts_or_flights (p : Publisher) (e : Event) :
    (p.start e).attempts.length = p.attempts.length + 1 ∨
      (p.start e).attempts.length = p.attempts.length ∧ p.flights ⊆ (p.start e).flights := by
  rcases start_cases p e with h | ⟨due, -, h⟩
  · refine Or.inl ?_
    have hlength := congrArg List.length (finish_events p e)
    rw [h]
    simpa using hlength
  · rw [h]
    exact Or.inr ⟨rfl, List.subset_append_left _ _⟩

theorem land_attempts_length (p : Publisher) :
    p.land.attempts.length = p.attempts.length + p.dueFlights.length := by
  have hlength := congrArg List.length (land_events p)
  simpa using hlength

end Publisher

namespace Queue

/-! ### Attempts and the clock -/

/-- Nothing was undone between two moments: no attempt is gone, and as long as none was added, no write
has left the air. -/
def Onward (q q' : Queue) : Prop :=
  q.publisher.now ≤ q'.publisher.now ∧
  q.publisher.attempts.length ≤ q'.publisher.attempts.length ∧
  (q'.publisher.attempts.length = q.publisher.attempts.length →
    q.publisher.flights ⊆ q'.publisher.flights)

theorem Onward.refl (q : Queue) : Onward q q := ⟨Nat.le_refl _, Nat.le_refl _, fun _ _ hf => hf⟩

theorem Onward.trans {q q' q'' : Queue} (h : Onward q q') (h' : Onward q' q'') : Onward q q'' := by
  obtain ⟨hnow, hlength, hflights⟩ := h
  obtain ⟨hnow', hlength', hflights'⟩ := h'
  refine ⟨by omega, by omega, ?_⟩
  intro heq
  exact List.Subset.trans (hflights (by omega)) (hflights' (by omega))

/-- A move that leaves the publisher alone. -/
theorem onward_of_publisher_eq {q q' : Queue} (h : q'.publisher = q.publisher) : Onward q q' := by
  unfold Onward
  rw [h]
  exact ⟨Nat.le_refl _, Nat.le_refl _, fun _ _ hf => hf⟩

theorem offer_publisher (q : Queue) (e : Event) : (q.offer e).publisher = q.publisher := by
  rcases offer_cases q e with ⟨-, h⟩ | ⟨-, -, h⟩ | ⟨-, -, -, h⟩ | ⟨-, -, -, h⟩ <;> rw [h] <;> rfl

theorem onward_landed (q : Queue) : Onward q q.landed := by
  refine ⟨Nat.le_of_eq (Publisher.land_now _).symm, ?_, ?_⟩
  · simp [landed, Publisher.land_attempts_length]
  · intro heq
    have hnone : q.publisher.dueFlights = [] := by
      simpa [landed, Publisher.land_attempts_length] using heq
    intro f hf
    have hlate : ¬ f.due ≤ q.publisher.now := fun hdue => by
      have hmem := Publisher.mem_dueFlights.mpr ⟨hf, hdue⟩
      rw [hnone] at hmem
      cases hmem
    simpa [landed] using ⟨hf, Nat.lt_of_not_le hlate⟩

theorem Move.onward {es : List Event} {q q' : Queue} (hmove : Move q es q') : Onward q q' := by
  cases hmove with
  | offer e => exact onward_of_publisher_eq (offer_publisher q e)
  | work hstep =>
    rcases workerStep_cases hstep with ⟨e, -, -, rfl⟩ | ⟨e, rest, -, -, rfl⟩ | ⟨-, -, -, -, rfl⟩
    · refine ⟨Nat.le_of_eq (Publisher.start_now _ e).symm, ?_⟩
      dsimp only
      rcases Publisher.start_attempts_or_flights q.publisher e with h | ⟨h, hsub⟩
      · exact ⟨by omega, fun heq => by omega⟩
      · exact ⟨by omega, fun _ => hsub⟩
    · exact onward_of_publisher_eq (letIn_publisher _)
    · exact onward_of_publisher_eq rfl
  | land => exact onward_landed q
  | wait t => exact ⟨Nat.le_max_left _ _, Nat.le_refl _, fun _ _ hf => hf⟩
  | fail | delay => exact ⟨Nat.le_refl _, Nat.le_refl _, fun _ _ hf => hf⟩
  | stop => exact onward_of_publisher_eq rfl

theorem Moves.onward {es : List Event} {q q' : Queue} (hmoves : Moves q es q') : Onward q q' := by
  induction hmoves with
  | none => exact .refl _
  | next _ hmove ih => exact ih.trans hmove.onward

theorem settle_now (q : Queue) : q.settle.publisher.now = q.publisher.now := by
  have hwork : ∀ (fuel : Nat) (q : Queue), (work fuel q).publisher.now = q.publisher.now := by
    intro fuel
    induction fuel with
    | zero => exact fun _ => rfl
    | succ fuel ih =>
      intro q
      unfold work
      split
      · rename_i q' hstep
        rw [ih q']
        rcases workerStep_cases hstep with ⟨e, -, -, rfl⟩ | ⟨e, rest, -, -, rfl⟩ | ⟨-, -, -, -, rfl⟩
        · exact Publisher.start_now _ e
        · rw [letIn_publisher]
        · rfl
      · rfl
  exact (hwork _ q.landed).trans (Publisher.land_now _)

/-- Settling makes the attempts that are due. -/
theorem settle_attempts_lt {q : Queue} {f : Flight} (hf : f ∈ q.publisher.flights)
    (hdue : f.due ≤ q.publisher.now) :
    q.publisher.attempts.length < q.settle.publisher.attempts.length := by
  have hpos := List.length_pos_of_mem (Publisher.mem_dueFlights.mpr ⟨hf, hdue⟩)
  have hland : q.landed.publisher.attempts.length =
      q.publisher.attempts.length + q.publisher.dueFlights.length :=
    Publisher.land_attempts_length _
  have hwork : q.landed.publisher.attempts.length ≤ q.settle.publisher.attempts.length :=
    (work_moves _ q.landed).onward.2.1
  omega

/-! ### Stopped queues -/

/-- The queue is stopped and nobody waits for it. -/
structure Closed (q : Queue) : Prop where
  stopped : q.stopped = true
  waiting : q.waiting = []

theorem closed_stop (q : Queue) : q.stop.Closed := ⟨rfl, rfl⟩

theorem Closed.stop_eq {q : Queue} (h : q.Closed) : q.stop = q := by
  unfold stop
  rw [h.waiting, List.map_nil, List.append_nil, ← h.stopped, ← h.waiting]

theorem Closed.offer_eq {q : Queue} (h : q.Closed) (e : Event) :
    q.offer e = q.numbered.refuse q.nextTicket .shuttingDown := by
  rcases offer_cases q e with ⟨-, heq⟩ | ⟨hopen, -⟩ | ⟨hopen, -⟩ | ⟨hopen, -⟩
  · exact heq
  all_goals
    rw [h.stopped] at hopen
    cases hopen

theorem Move.closed {es : List Event} {q q' : Queue} (hmove : Move q es q') (h : q.Closed) :
    q'.Closed ∧ q'.accepted = q.accepted := by
  cases hmove with
  | offer e =>
    rw [h.offer_eq e]
    exact ⟨⟨h.stopped, h.waiting⟩, rfl⟩
  | work hstep =>
    rcases workerStep_cases hstep with ⟨e, -, -, rfl⟩ | ⟨e, rest, -, -, rfl⟩ | ⟨-, -, -, -, rfl⟩
    · exact ⟨⟨h.stopped, h.waiting⟩, rfl⟩
    · rcases letIn_cases { q with held := some e, channel := rest } with
        ⟨-, heq⟩ | ⟨s, others, hwaiting, -⟩
      · rw [heq]
        exact ⟨⟨h.stopped, h.waiting⟩, rfl⟩
      · cases h.waiting.symm.trans hwaiting
    · exact ⟨⟨h.stopped, h.waiting⟩, rfl⟩
  | stop => exact ⟨⟨rfl, rfl⟩, rfl⟩
  | land | wait | fail | delay => exact ⟨⟨h.stopped, h.waiting⟩, rfl⟩

theorem Moves.closed {es : List Event} {q q' : Queue} (hmoves : Moves q es q') (h : q.Closed) :
    q'.Closed ∧ q'.accepted = q.accepted := by
  refine hmoves.preserves (P := fun q' => q'.Closed ∧ q'.accepted = q.accepted) ?_ ⟨h, rfl⟩
  rintro es q₁ q₂ hmove ⟨hclosed, haccepted⟩
  obtain ⟨hclosed', haccepted'⟩ := hmove.closed hclosed
  exact ⟨hclosed', haccepted'.trans haccepted⟩

/-- A stopped queue refuses every new event at once. -/
theorem Closed.notify_eq {offered : List Event} {q : Queue} (h : q.Closed)
    (hanswers : Answers offered q) (e : Event) :
    q.notify e = (.error .shuttingDown, q.offer e) ∧
      (q.offer e).answer? q.nextTicket = some (.error .shuttingDown) := by
  have hanswer : (q.offer e).answer? q.nextTicket = some (.error .shuttingDown) := by
    rw [(answers_offer hanswers e).answer?_eq_some_iff, h.offer_eq e]
    exact List.mem_append_right _ (List.mem_singleton.mpr rfl)
  refine ⟨?_, hanswer⟩
  unfold notify
  simp only [hanswer]

/-- The clock of a stopped queue moves only in actions that settle the queue first. -/
theorem settle_moves_of_now_lt {offered : List Event} {q : Queue} {a : Action} (h : q.Closed)
    (hanswers : Answers offered q) (hlt : q.publisher.now < (q.act a).publisher.now) :
    Moves q.settle [] (q.act a) := by
  cases a with
  | notify e =>
    rw [show q.act (.notify e) = q.offer e from congrArg Prod.snd (h.notify_eq hanswers e).1,
      offer_publisher] at hlt
    exact absurd hlt (Nat.lt_irrefl _)
  | offer e =>
    rw [show q.act (.offer e) = q.offer e from rfl, offer_publisher] at hlt
    exact absurd hlt (Nat.lt_irrefl _)
  | fail | delay => exact absurd hlt (Nat.lt_irrefl _)
  | advance ms => exact (settle_moves _).after (runUntil_moves _ _ _ _)
  | settle => exact absurd hlt (by rw [act, settle_now]; exact Nat.lt_irrefl _)
  | shutdown ms =>
    unfold act shutdown at hlt ⊢
    rw [h.stop_eq] at hlt ⊢
    dsimp only at hlt ⊢
    split at hlt
    · exact absurd hlt (Nat.lt_irrefl _)
    · rename_i hms
      rw [if_neg hms]
      exact runUntil_moves _ _ _ _

/-! ### Time goes on -/

/-- The queue after the first so many of actions without end. -/
def stateAt (q : Queue) (actions : Nat → Action) : Nat → Queue
  | 0 => q
  | n + 1 => (q.stateAt actions n).act (actions n)

/-- The events that the first so many of actions offer. -/
def offeredBy (actions : Nat → Action) (n : Nat) : List Event :=
  (List.range n).flatMap fun i => (actions i).offered

theorem stateAt_moves (q : Queue) (actions : Nat → Action) (n : Nat) :
    Moves q (offeredBy actions n) (q.stateAt actions n) := by
  induction n with
  | zero => exact .none q
  | succ n ih =>
    unfold offeredBy
    rw [List.range_succ, List.flatMap_append, List.flatMap_singleton]
    exact ih.trans (act_moves _ _)

theorem stateAt_moves_le (q : Queue) (actions : Nat → Action) {m n : Nat} (hle : m ≤ n) :
    ∃ es, Moves (q.stateAt actions m) es (q.stateAt actions n) := by
  induction hle with
  | refl => exact ⟨[], .none _⟩
  | step _ ih =>
    obtain ⟨es, hmoves⟩ := ih
    exact ⟨_, hmoves.trans (act_moves _ _)⟩

theorem exists_rise {f : Nat → Nat} {m n : Nat} (hle : m ≤ n) (hlt : f m < f n) :
    ∃ k, m ≤ k ∧ f k < f (k + 1) := by
  induction hle with
  | refl => exact absurd hlt (Nat.lt_irrefl _)
  | @step n hle ih =>
    by_cases hrise : f n < f (n + 1)
    · exact ⟨n, hle, hrise⟩
    · exact ih (Nat.lt_of_lt_of_le hlt (Nat.le_of_not_lt hrise))

/-- The clock rises again after any moment, if it passes every instant. -/
theorem exists_later_rise {q : Queue} {actions : Nat → Action}
    (hpasses : ∀ T, ∃ n, T ≤ (q.stateAt actions n).publisher.now) (m : Nat) :
    ∃ k, m ≤ k ∧
      (q.stateAt actions k).publisher.now < (q.stateAt actions (k + 1)).publisher.now := by
  obtain ⟨n, hn⟩ := hpasses ((q.stateAt actions m).publisher.now + 1)
  have hle : m ≤ n := by
    by_contra hlt
    obtain ⟨es, hmoves⟩ := stateAt_moves_le q actions (Nat.le_of_not_le hlt)
    have hnow := hmoves.onward.1
    omega
  exact exists_rise (f := fun k => (q.stateAt actions k).publisher.now) hle (Nat.lt_of_succ_le hn)

/-- A settled queue with an accepted event that is not attempted has a write in flight. -/
theorem flights_ne_nil_of_unattempted {q : Queue} (hplaced : Placed q) (hsettled : q.Settled)
    (hlt : q.publisher.attempts.length < q.accepted.length) : q.publisher.flights ≠ [] := by
  intro hnone
  have hback : ¬ (q.held ≠ none ∨ q.channel ≠ []) := fun h => hsettled.flights_ne_nil h hnone
  have hheld : q.held = none := by
    by_contra h
    exact hback (Or.inl h)
  have hchannel : q.channel = [] := by
    by_contra h
    exact hback (Or.inr h)
  have hlength := hplaced.conserved.length_eq
  simp [places, hnone, hheld, hchannel] at hlength
  omega

section
variable {q : Queue} {offered : List Event} {actions : Nat → Action} (hclosed : q.Closed)
  (hanswers : Answers offered q) (hplaced : Placed q)
  (hpasses : ∀ T, ∃ n, T ≤ (q.stateAt actions n).publisher.now)

include hclosed hanswers hplaced hpasses

/-- While an accepted event is not attempted, some attempt is still to come. -/
theorem exists_more_attempts (m : Nat)
    (hlt : (q.stateAt actions m).publisher.attempts.length < q.accepted.length) :
    ∃ k, m ≤ k ∧ (q.stateAt actions m).publisher.attempts.length <
      (q.stateAt actions k).publisher.attempts.length := by
  have hsettles : ∀ k,
      (q.stateAt actions k).publisher.now < (q.stateAt actions (k + 1)).publisher.now →
      Moves (q.stateAt actions k).settle [] (q.stateAt actions (k + 1)) := fun k hrise =>
    settle_moves_of_now_lt ((stateAt_moves q actions k).closed hclosed).1
      ((stateAt_moves q actions k).answers hanswers) hrise
  -- the first rise after `m` finds a write in flight
  obtain ⟨i, hmi, hrise⟩ := exists_later_rise hpasses m
  obtain ⟨es, hbefore⟩ := stateAt_moves_le q actions hmi
  have hsettle := (stateAt_moves q actions i).andThen (settle_moves _)
  by_cases hmore : (q.stateAt actions m).publisher.attempts.length <
      (q.stateAt actions i).settle.publisher.attempts.length
  · refine ⟨i + 1, by omega, ?_⟩
    have hafter := (hsettles i hrise).onward.2.1
    omega
  obtain ⟨f, hf⟩ := List.exists_mem_of_ne_nil _ (flights_ne_nil_of_unattempted
    (hsettle.placed hplaced) (settle_settled _)
    (by rw [(hsettle.closed hclosed).2]; omega))
  -- a rise after the write is due finds it ended, or ends it
  obtain ⟨n, hn⟩ := hpasses f.due
  obtain ⟨j, hj, hrise'⟩ := exists_later_rise hpasses (max n (i + 1))
  obtain ⟨fs, hbetween⟩ := stateAt_moves_le q actions (Nat.le_trans (Nat.le_max_right _ _) hj)
  obtain ⟨gs, hdue⟩ := stateAt_moves_le q actions (Nat.le_trans (Nat.le_max_left _ _) hj)
  refine ⟨j + 1, by omega, ?_⟩
  have hfirst := (hbefore.andThen (settle_moves _)).onward.2.1
  have hflight := ((hsettles i hrise).trans hbetween).onward
  have hlast := (hsettles j hrise').onward.2.1
  have hsettle' := (settle_moves (q.stateAt actions j)).onward.2.1
  by_cases hsame : (q.stateAt actions j).publisher.attempts.length =
      (q.stateAt actions i).settle.publisher.attempts.length
  · have hstill := hflight.2.2 hsame hf
    have hends := settle_attempts_lt hstill (Nat.le_trans hn hdue.onward.1)
    omega
  · have hgrown := hflight.2.1
    omega

/-- From some moment on, as many attempts are made as events were accepted. -/
theorem eventually_attempted :
    ∃ n, ∀ k, n ≤ k →
      q.accepted.length ≤ (q.stateAt actions k).publisher.attempts.length := by
  have hreach : ∀ left m, q.accepted.length - (q.stateAt actions m).publisher.attempts.length ≤ left →
      ∃ n, q.accepted.length ≤ (q.stateAt actions n).publisher.attempts.length := by
    intro left
    induction left with
    | zero => exact fun m hleft => ⟨m, by omega⟩
    | succ left ih =>
      intro m hleft
      by_cases hdone : q.accepted.length ≤ (q.stateAt actions m).publisher.attempts.length
      · exact ⟨m, hdone⟩
      · obtain ⟨k, -, hmore⟩ :=
          exists_more_attempts hclosed hanswers hplaced hpasses m (by omega)
        exact ih k (by omega)
  obtain ⟨n, hn⟩ := hreach _ 0 (Nat.le_refl _)
  refine ⟨n, ?_⟩
  intro k hnk
  obtain ⟨es, hmoves⟩ := stateAt_moves_le q actions hnk
  exact Nat.le_trans hn hmoves.onward.2.1

end

end Queue

end CompanyRegistry
