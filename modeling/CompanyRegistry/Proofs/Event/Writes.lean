import CompanyRegistry.Event.Publisher
import Mathlib.Data.List.Perm.Basic

/-!
# What a publisher does with the events it is given

A publisher keeps the events of its writes in two lists, those in flight and those attempted. These
lemmas say what starting, ending and landing writes do to the two lists together
(`Publisher.entrusted`), and that the messages of its writer are those of the successful attempts, in
order (`Publisher.Recorded`).

Nothing here looks at the channel in front of the publisher.
-/

namespace CompanyRegistry

/-- What a write that ends now comes to. -/
def Writer.result (w : Writer) : Except TransportError Unit :=
  match w.failure with
  | some e => .error e
  | none => .ok ()

theorem Writer.write_failure (w : Writer) (m : Message) : (w.write m).2.failure = w.failure := by
  unfold Writer.write
  split <;> rfl

theorem Writer.write_delay (w : Writer) (m : Message) : (w.write m).2.delay = w.delay := by
  unfold Writer.write
  split <;> rfl

/-- The message that an attempt left with the writer: one if it succeeded, none if it failed. -/
def Attempt.message? (t : KeyTemplate) (a : Attempt) : Option Message :=
  match a.result with
  | .ok () => some (t.message a.event)
  | .error _ => none

namespace Publisher

/-- The events that the publisher was ever given, by their writes. -/
def entrusted (p : Publisher) : List Event :=
  p.attempts.map (·.event) ++ p.flights.map (·.event)

/-- The writer holds what it held before, then the messages of the successful attempts. -/
def Recorded (t : KeyTemplate) (before : List Message) (p : Publisher) : Prop :=
  p.writer.messages = before ++ p.attempts.filterMap (Attempt.message? t)

/-! ### Ending one write -/

@[simp] theorem finish_flights (p : Publisher) (e : Event) : (p.finish e).flights = p.flights := by
  unfold finish
  split <;> rfl

@[simp] theorem finish_now (p : Publisher) (e : Event) : (p.finish e).now = p.now := by
  unfold finish
  split <;> rfl

@[simp] theorem finish_template (p : Publisher) (e : Event) :
    (p.finish e).template = p.template := by
  unfold finish
  split
  · rfl
  · rename_i t ht
    exact ht.symm ▸ rfl

@[simp] theorem finish_failure (p : Publisher) (e : Event) :
    (p.finish e).writer.failure = p.writer.failure := by
  unfold finish
  split
  · rfl
  · exact Writer.write_failure _ _

@[simp] theorem finish_delay (p : Publisher) (e : Event) :
    (p.finish e).writer.delay = p.writer.delay := by
  unfold finish
  split
  · rfl
  · exact Writer.write_delay _ _

theorem finish_events (p : Publisher) (e : Event) :
    (p.finish e).attempts.map (·.event) = p.attempts.map (·.event) ++ [e] := by
  unfold finish
  split <;> simp

theorem finish_attempts (p : Publisher) (t : KeyTemplate) (ht : p.template = some t) (e : Event) :
    (p.finish e).attempts = p.attempts ++ [⟨e, p.writer.result⟩] := by
  simp only [finish, ht, Writer.write, Writer.result]
  cases p.writer.failure <;> rfl

theorem finish_recorded {p : Publisher} {t : KeyTemplate} {before : List Message}
    (ht : p.template = some t) (h : p.Recorded t before) (e : Event) :
    (p.finish e).Recorded t before := by
  unfold Recorded at h ⊢
  rw [finish_attempts p t ht, List.filterMap_append, ← List.append_assoc, ← h]
  simp only [finish, ht, Writer.write, Writer.result]
  cases p.writer.failure <;> simp [Attempt.message?]

/-! ### Ending several writes -/

/-- Ends the writes of some flights, in order. -/
def finishAll (p : Publisher) (fs : List Flight) : Publisher :=
  fs.foldl (fun p f => p.finish f.event) p

@[simp] theorem finishAll_cons (p : Publisher) (f : Flight) (fs : List Flight) :
    p.finishAll (f :: fs) = (p.finish f.event).finishAll fs := rfl

@[simp] theorem finishAll_flights (fs : List Flight) (p : Publisher) :
    (p.finishAll fs).flights = p.flights := by
  induction fs generalizing p with
  | nil => rfl
  | cons f fs ih => rw [finishAll_cons, ih, finish_flights]

@[simp] theorem finishAll_now (fs : List Flight) (p : Publisher) :
    (p.finishAll fs).now = p.now := by
  induction fs generalizing p with
  | nil => rfl
  | cons f fs ih => rw [finishAll_cons, ih, finish_now]

@[simp] theorem finishAll_template (fs : List Flight) (p : Publisher) :
    (p.finishAll fs).template = p.template := by
  induction fs generalizing p with
  | nil => rfl
  | cons f fs ih => rw [finishAll_cons, ih, finish_template]

theorem finishAll_events (fs : List Flight) (p : Publisher) :
    (p.finishAll fs).attempts.map (·.event) = p.attempts.map (·.event) ++ fs.map (·.event) := by
  induction fs generalizing p with
  | nil => simp [finishAll]
  | cons f fs ih =>
    rw [finishAll_cons, ih, finish_events, List.append_assoc]
    rfl

theorem finishAll_recorded {t : KeyTemplate} {before : List Message} (fs : List Flight)
    {p : Publisher} (ht : p.template = some t) (h : p.Recorded t before) :
    (p.finishAll fs).Recorded t before := by
  induction fs generalizing p with
  | nil => exact h
  | cons f fs ih =>
    rw [finishAll_cons]
    exact ih ((finish_template p f.event).trans ht) (finish_recorded ht h f.event)

/-! ### Landing -/

theorem land_eq (p : Publisher) :
    p.land = finishAll { p with flights := p.flights.filter fun f => ¬ f.due ≤ p.now }
      p.dueFlights := rfl

@[simp] theorem land_flights (p : Publisher) :
    p.land.flights = p.flights.filter fun f => ¬ f.due ≤ p.now := by
  rw [land_eq, finishAll_flights]

@[simp] theorem land_now (p : Publisher) : p.land.now = p.now := by
  rw [land_eq, finishAll_now]

@[simp] theorem land_template (p : Publisher) : p.land.template = p.template := by
  rw [land_eq, finishAll_template]

theorem land_events (p : Publisher) :
    p.land.attempts.map (·.event) = p.attempts.map (·.event) ++ p.dueFlights.map (·.event) := by
  rw [land_eq, finishAll_events]

theorem dueFlights_perm (p : Publisher) :
    p.dueFlights.Perm (p.flights.filter (·.due ≤ p.now)) :=
  List.mergeSort_perm _ _

theorem mem_dueFlights {p : Publisher} {f : Flight} :
    f ∈ p.dueFlights ↔ f ∈ p.flights ∧ f.due ≤ p.now := by
  rw [(dueFlights_perm p).mem_iff]
  simp

/-- Landing takes nothing away and adds nothing: it moves events from one list to the other. -/
theorem land_entrusted (p : Publisher) : p.land.entrusted.Perm p.entrusted := by
  have hsplit : (p.dueFlights ++ p.land.flights).Perm p.flights := by
    rw [land_flights]
    refine ((dueFlights_perm p).append_right _).trans ?_
    simpa only [decide_not] using
      List.filter_append_perm (fun f : Flight => decide (f.due ≤ p.now)) p.flights
  unfold entrusted
  rw [land_events, List.append_assoc, ← List.map_append]
  exact (hsplit.map _).append_left _

theorem land_recorded {p : Publisher} {t : KeyTemplate} {before : List Message}
    (ht : p.template = some t) (h : p.Recorded t before) : p.land.Recorded t before := by
  rw [land_eq]
  exact finishAll_recorded p.dueFlights ht h

/-- Once landed, no write is due. -/
theorem land_late (p : Publisher) : ∀ f ∈ p.land.flights, p.land.now < f.due := by
  intro f hf
  rw [land_flights] at hf
  rw [land_now]
  have hdue := (List.mem_filter.mp hf).2
  simpa using hdue

/-! ### Starting a write -/

@[simp] theorem start_now (p : Publisher) (e : Event) : (p.start e).now = p.now := by
  unfold start
  split
  · exact finish_now p e
  · rfl

@[simp] theorem start_template (p : Publisher) (e : Event) :
    (p.start e).template = p.template := by
  unfold start
  split
  · exact finish_template p e
  · rfl

/-- A write that starts is in flight until some later instant, or has ended already. -/
theorem start_cases (p : Publisher) (e : Event) :
    p.start e = p.finish e ∨
      ∃ due, p.now < due ∧ p.start e = { p with flights := p.flights ++ [⟨e, due⟩] } := by
  unfold start
  split
  · exact Or.inl rfl
  · rename_i hinstant
    refine Or.inr ⟨_, ?_, rfl⟩
    simp only [isInstant, Bool.or_eq_true, beq_iff_eq, not_or] at hinstant
    omega

theorem start_entrusted (p : Publisher) (e : Event) :
    (p.start e).entrusted.Perm (p.entrusted ++ [e]) := by
  unfold entrusted
  rcases start_cases p e with h | ⟨due, -, h⟩
  · rw [h, finish_events, finish_flights, List.append_assoc, List.append_assoc]
    exact List.perm_append_comm.append_left _
  · simp [h]

theorem start_recorded {p : Publisher} {t : KeyTemplate} {before : List Message}
    (ht : p.template = some t) (h : p.Recorded t before) (e : Event) :
    (p.start e).Recorded t before := by
  rcases start_cases p e with hstart | ⟨due, -, hstart⟩
  · exact hstart ▸ finish_recorded ht h e
  · exact hstart ▸ h

end Publisher

end CompanyRegistry
