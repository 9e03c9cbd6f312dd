import CompanyRegistry.Proofs.Event.Moves

/-!
# A queue settles, and a wait ends

`Queue.settle` and `Queue.runUntil` count their steps down from a number computed beforehand. These lemmas
say that the number suffices: after `settle` the worker is stuck and no write is due
(`settle_settled`), and a settled queue that still holds something back has a write in flight
(`Settled.flights_ne_nil`), so each instant of a wait ends at least one write (`settle_unfinished_lt`).

Hence a wait without a deadline ends with its condition (`runUntil_holds`).
-/

namespace CompanyRegistry.Queue

/-! ### The worker's steps run out -/

/-- A bound on the worker's steps: two for each event that it has not taken, one for the event that it
holds, one for its end. -/
def stepsLeft (q : Queue) : Nat :=
  2 * (q.channel.length + q.waiting.length) + q.held.toList.length +
    if q.workerEnded then 0 else 1

theorem letIn_length (q : Queue) :
    q.letIn.channel.length + q.letIn.waiting.length = q.channel.length + q.waiting.length := by
  rcases letIn_cases q with ⟨-, h⟩ | ⟨s, rest, hwaiting, h⟩
  · rw [h]
  · rw [h, hwaiting]
    simp [accept]
    omega

@[simp] theorem letIn_held (q : Queue) : q.letIn.held = q.held := by
  unfold letIn
  split <;> rfl

@[simp] theorem letIn_workerEnded (q : Queue) : q.letIn.workerEnded = q.workerEnded := by
  unfold letIn
  split <;> rfl

@[simp] theorem letIn_publisher (q : Queue) : q.letIn.publisher = q.publisher := by
  unfold letIn
  split <;> rfl

theorem workerStep_stepsLeft {q q' : Queue} (h : q.workerStep? = some q') :
    q'.stepsLeft < q.stepsLeft := by
  rcases workerStep_cases h with ⟨e, hheld, -, rfl⟩ | ⟨e, rest, hheld, hchannel, rfl⟩ |
    ⟨hheld, hchannel, -, hended, rfl⟩
  · simp [stepsLeft, hheld]
  · have hlength := letIn_length { q with held := some e, channel := rest }
    simp only [stepsLeft, letIn_held, letIn_workerEnded, hheld, hchannel, Option.toList_some,
      Option.toList_none, List.length_cons, List.length_nil] at hlength ⊢
    omega
  · simp [stepsLeft, hheld, hchannel, hended]

theorem work_stuck (fuel : Nat) (q : Queue) (hfuel : q.stepsLeft ≤ fuel) :
    (work fuel q).workerStep? = none := by
  induction fuel generalizing q with
  | zero =>
    cases hstep : q.workerStep? with
    | none => exact hstep
    | some q' =>
      have hlt := workerStep_stepsLeft hstep
      omega
  | succ fuel ih =>
    unfold work
    split
    · rename_i q' hstep
      have hlt := workerStep_stepsLeft hstep
      exact ih q' (by omega)
    · rename_i hstep
      exact hstep

theorem stepsLeft_le_pendingSteps (q : Queue) : q.stepsLeft ≤ q.pendingSteps := by
  unfold stepsLeft pendingSteps
  cases q.held <;> cases q.workerEnded <;> simp

/-! ### After settling -/

/-- No write is due. -/
def Late (q : Queue) : Prop := ∀ f ∈ q.publisher.flights, q.publisher.now < f.due

/-- Nothing more happens before time passes. -/
structure Settled (q : Queue) : Prop where
  stuck : q.workerStep? = none
  late : q.Late

theorem landed_late (q : Queue) : q.landed.Late := Publisher.land_late q.publisher

theorem workerStep_late {q q' : Queue} (h : q.workerStep? = some q') (hlate : q.Late) :
    q'.Late := by
  rcases workerStep_cases h with ⟨e, -, -, rfl⟩ | ⟨e, rest, -, -, rfl⟩ | ⟨-, -, -, -, rfl⟩
  · intro f hf
    dsimp only at hf ⊢
    rw [Publisher.start_now]
    rcases Publisher.start_cases q.publisher e with hstart | ⟨due, hdue, hstart⟩
    · rw [hstart, Publisher.finish_flights] at hf
      exact hlate f hf
    · rw [hstart] at hf
      rcases List.mem_append.mp hf with hold | hnew
      · exact hlate f hold
      · rw [List.mem_singleton.mp hnew]
        exact hdue
  · intro f hf
    rw [letIn_publisher] at hf ⊢
    exact hlate f hf
  · exact hlate

theorem work_late (fuel : Nat) {q : Queue} (hlate : q.Late) : (work fuel q).Late := by
  induction fuel generalizing q with
  | zero => exact hlate
  | succ fuel ih =>
    unfold work
    split
    · rename_i q' hstep
      exact ih (workerStep_late hstep hlate)
    · exact hlate

theorem settle_settled (q : Queue) : q.settle.Settled :=
  ⟨work_stuck _ _ (stepsLeft_le_pendingSteps q.landed), work_late _ (landed_late q)⟩

theorem slots_pos (q : Queue) : 0 < q.slots := Nat.lt_of_lt_of_le Nat.one_pos (Nat.le_max_left _ _)

theorem capacity_pos (q : Queue) : 0 < q.capacity :=
  Nat.lt_of_lt_of_le Nat.one_pos (Nat.le_max_left _ _)

/-- A settled worker waits for a write to end, or has nothing to do. -/
theorem Settled.cases {q : Queue} (h : q.Settled) :
    (q.held.isSome ∧ q.slots ≤ q.publisher.flights.length) ∨
    (q.held = none ∧ q.channel = [] ∧ (q.stopped = true → q.workerEnded = true)) := by
  have hstuck := h.stuck
  unfold workerStep? at hstuck
  split at hstuck
  · rename_i e hheld
    split at hstuck
    · cases hstuck
    · exact Or.inl ⟨by simp [hheld], by omega⟩
  · rename_i hheld
    split at hstuck
    · cases hstuck
    · rename_i hchannel
      split at hstuck
      · cases hstuck
      · rename_i hends
        refine Or.inr ⟨hheld, hchannel, ?_⟩
        intro hstopped
        simpa [hstopped] using hends

/-- What a settled queue holds back, it holds back for a write in flight. -/
theorem Settled.flights_ne_nil {q : Queue} (h : q.Settled)
    (hback : q.held ≠ none ∨ q.channel ≠ []) : q.publisher.flights ≠ [] := by
  rcases h.cases with ⟨-, hfull⟩ | ⟨hheld, hchannel, -⟩
  · have hpos := q.slots_pos
    exact List.ne_nil_of_length_pos (by omega)
  · rcases hback with hsome | hsome
    · exact absurd hheld hsome
    · exact absurd hchannel hsome

/-! ### Each instant ends a write -/

theorem workerStep_unfinished {q q' : Queue} (h : q.workerStep? = some q') :
    q'.unfinished ≤ q.unfinished := by
  rcases workerStep_cases h with ⟨e, hheld, -, rfl⟩ | ⟨e, rest, hheld, hchannel, rfl⟩ |
    ⟨-, -, -, -, rfl⟩
  · rcases Publisher.start_cases q.publisher e with hstart | ⟨due, -, hstart⟩
    · simp [unfinished, hheld, hstart]
    · simp [unfinished, hheld, hstart]
      omega
  · have hlength := letIn_length { q with held := some e, channel := rest }
    simp only [unfinished, letIn_held, letIn_publisher, hheld, hchannel, Option.toList_some,
      Option.toList_none, List.length_cons, List.length_nil] at hlength ⊢
    omega
  · exact Nat.le_refl _

theorem work_unfinished (fuel : Nat) (q : Queue) : (work fuel q).unfinished ≤ q.unfinished := by
  induction fuel generalizing q with
  | zero => exact Nat.le_refl _
  | succ fuel ih =>
    unfold work
    split
    · rename_i q' hstep
      exact Nat.le_trans (ih q') (workerStep_unfinished hstep)
    · exact Nat.le_refl _

theorem landed_unfinished_lt {q : Queue} {f : Flight} (hf : f ∈ q.publisher.flights)
    (hdue : f.due ≤ q.publisher.now) : q.landed.unfinished < q.unfinished := by
  have hfilter : (q.publisher.flights.filter fun f => ¬ f.due ≤ q.publisher.now).length <
      q.publisher.flights.length :=
    List.length_filter_lt_length_iff_exists.mpr ⟨f, hf, by simpa using hdue⟩
  simp only [unfinished, landed, Publisher.land_flights] at hfilter ⊢
  omega

/-- Settling ends at least one write where one is due. -/
theorem settle_unfinished_lt {q : Queue} {f : Flight} (hf : f ∈ q.publisher.flights)
    (hdue : f.due ≤ q.publisher.now) : q.settle.unfinished < q.unfinished :=
  Nat.lt_of_le_of_lt (work_unfinished _ _) (landed_unfinished_lt hf hdue)

theorem nextDue_eq_some {p : Publisher} (h : p.flights ≠ []) :
    ∃ f ∈ p.flights, p.nextDue? = some f.due := by
  have hne : p.flights.map (·.due) ≠ [] := by simpa using h
  obtain ⟨d, hd⟩ := Option.ne_none_iff_exists'.mp (mt List.min?_eq_none_iff.mp hne)
  obtain ⟨f, hf, rfl⟩ := List.mem_map.mp (List.min?_mem hd)
  exact ⟨f, hf, hd⟩

/-- A wait without a deadline ends with its condition, if the condition can only be missing while a
write is in flight. -/
theorem runUntil_holds (holds : Queue → Bool) (Inv : Queue → Prop)
    (hclosed : ∀ {q q' : Queue}, Inv q → Moves q [] q' → Inv q')
    (hflying : ∀ {q : Queue}, Inv q → q.Settled → holds q = false → q.publisher.flights ≠ [])
    (fuel : Nat) (q : Queue) (hinv : Inv q) (hsettled : q.Settled) (hfuel : q.unfinished < fuel) :
    holds (runUntil holds fuel q none).2 = true := by
  induction fuel generalizing q with
  | zero => omega
  | succ fuel ih =>
    unfold runUntil
    cases hholds : holds q with
    | true => simpa using hholds
    | false =>
      -- the wait goes on at the next instant at which a write ends, with fewer events unfinished
      obtain ⟨f, hf, hnext⟩ := nextDue_eq_some (hflying hinv hsettled hholds)
      have hlt : (q.atTime f.due).settle.unfinished < q.unfinished :=
        settle_unfinished_lt (q := q.atTime f.due) hf (Nat.le_max_right _ _)
      have hmoves : Moves q [] (q.atTime f.due).settle :=
        (settle_moves _).after (Move.wait q f.due).moves
      simpa [hnext, isBefore] using
        ih _ (hclosed hinv hmoves) (settle_settled _) (by omega)

end CompanyRegistry.Queue
