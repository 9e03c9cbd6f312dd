import CompanyRegistry.Proofs.Event.Writes

/-!
# The chronicle of a publisher

A chronicle puts beside a publisher all publishes that it was ever given, in order, each with its result once
it has ended. `Step` is the smallest thing that happens to both: a publish begins with the delay that is in force,
a publish ends in the millisecond in which its delay is over, the clock moves but never past such an end, or
the writer changes its mind. Publishes that overlap may end in any order.

Every step has its label. Writes end and time passes of themselves; that a publish begins or that the writer
changes its mind comes from outside, and is an input of the steps (`inputs`). So the inputs tell which failure
and which delay are in force (`steps_inForce`) and which publishes there are (`steps_flights`).

`Books` is what every step keeps: the writes in flight are the publishes without a result, the attempts are
those with one, and the writer has the messages of the attempts that succeeded. A result is given once
(`Step.publish_cases`) and never taken back (`steps_keep`).
-/

namespace CompanyRegistry.Publisher

/-- The write of an event that begins now, with the delay in force. -/
def entering (p : Publisher) (e : Event) : Flight := ⟨e, p.now + p.writer.delay.getD 0⟩

/-- The publisher with one more write in flight. -/
def withFlight (p : Publisher) (f : Flight) : Publisher := { p with flights := p.flights ++ [f] }

/-- The publisher with other writes in flight. -/
def withFlights (p : Publisher) (fs : List Flight) : Publisher := { p with flights := fs }

@[simp] theorem withFlights_template (p : Publisher) (fs : List Flight) :
    (p.withFlights fs).template = p.template := rfl

/-- Moves the clock to an instant, never back. -/
def atTime (p : Publisher) (t : Nat) : Publisher := { p with now := max p.now t }

/-- The publisher with another failure of the writer in force. -/
def setFailure (p : Publisher) (failure : Option TransportError) : Publisher :=
  { p with writer := { p.writer with failure } }

/-- The publisher with another delay of the writer in force. -/
def setDelay (p : Publisher) (delay : Option Nat) : Publisher :=
  { p with writer := { p.writer with delay } }

/-! ### Steps -/

/-- A publish: its write as it began, and its result once it has ended. -/
structure Publish extends Flight where
  result : Option (Except TransportError Unit)

namespace Publish

/-- The write in flight of a publish that has not ended. -/
def flight? (a : Publish) : Option Flight := if a.result.isNone then some a.toFlight else none

/-- The attempt of a publish that has ended. -/
def attempt? (a : Publish) : Option Attempt := a.result.map (⟨a.event, ·⟩)

theorem eq_of_flight? {a : Publish} {f : Flight} (h : a.flight? = some f) : a = ⟨f, none⟩ := by
  obtain ⟨f', result⟩ := a
  cases result with
  | none => exact congrArg (Publish.mk · none) (Option.some.inj h)
  | some result => cases h

end Publish

/-- A publisher with all publishes that it was given, in order. -/
structure Chronicle where
  publishes : List Publish
  publisher : Publisher

/-- What happens in a step: a publish begins, that of a number ends, time passes until an instant, or
another failure or delay of the writer is in force from now on. -/
inductive Label
  | begins (e : Event)
  | ends (i : Nat)
  | passes (u : Nat)
  | fails (failure : Option TransportError)
  | delays (delay : Option Nat)

namespace Label

/-- Whether it comes from outside. -/
def isInput : Label → Bool
  | .begins _ | .fails _ | .delays _ => true
  | .ends _ | .passes _ => false

/-- The event whose publish begins. -/
def event? : Label → Option Event
  | .begins e => some e
  | .ends _ | .passes _ | .fails _ | .delays _ => none

/-- The failure that is in force afterwards. -/
def failure (before : Option TransportError) : Label → Option TransportError
  | .fails failure => failure
  | .begins _ | .ends _ | .passes _ | .delays _ => before

/-- The delay that is in force afterwards. -/
def delay (before : Option Nat) : Label → Option Nat
  | .delays delay => delay
  | .begins _ | .ends _ | .passes _ | .fails _ => before

end Label

/-- What comes from outside, in order. -/
def inputs (ls : List Label) : List Label := ls.filter Label.isInput

theorem inputs_append (ls ls' : List Label) : inputs (ls ++ ls') = inputs ls ++ inputs ls' :=
  List.filter_append ls ls'

/-- One step of a publisher. A write ends when its delay is over, as the writer then stands, and the clock
does not pass the end of a write in flight. -/
inductive Step : Chronicle → Label → Chronicle → Prop
  | begins (c : Chronicle) (e : Event) :
      Step c (.begins e) ⟨c.publishes ++ [⟨c.publisher.entering e, none⟩],
        c.publisher.withFlight (c.publisher.entering e)⟩
  | ends (earlier later : List Publish) (f : Flight) (p : Publisher) (hdue : f.due = p.now) :
      Step ⟨earlier ++ ⟨f, none⟩ :: later, p⟩ (.ends earlier.length)
        ⟨earlier ++ ⟨f, some p.writer.result⟩ :: later,
          (p.withFlights ((earlier ++ later).filterMap Publish.flight?)).finish f.event⟩
  | passes (c : Chronicle) (u : Nat) (h : ∀ f ∈ c.publisher.flights, u ≤ f.due) :
      Step c (.passes u) ⟨c.publishes, c.publisher.atTime u⟩
  | fails (c : Chronicle) (failure : Option TransportError) :
      Step c (.fails failure) ⟨c.publishes, c.publisher.setFailure failure⟩
  | delays (c : Chronicle) (delay : Option Nat) :
      Step c (.delays delay) ⟨c.publishes, c.publisher.setDelay delay⟩

/-- Steps in a row, with their labels. -/
inductive Steps : Chronicle → List Label → Chronicle → Prop
  | refl (c : Chronicle) : Steps c [] c
  | tail {c c' c'' : Chronicle} {ls : List Label} {l : Label} :
      Steps c ls c' → Step c' l c'' → Steps c (ls ++ [l]) c''

section
variable {c c' c'' : Chronicle} {l : Label} {ls ls' : List Label}

theorem Step.steps (h : Step c l c') : Steps c [l] c' := .tail (.refl c) h

theorem Steps.trans (h : Steps c ls c') (h' : Steps c' ls' c'') : Steps c (ls ++ ls') c'' := by
  induction h' with
  | refl => simpa using h
  | tail _ hstep ih => simpa using Steps.tail ih hstep

theorem Steps.head (hstep : Step c l c') (h : Steps c' ls c'') : Steps c (l :: ls) c'' :=
  hstep.steps.trans h

/-- What each step keeps, steps in a row keep. -/
theorem Steps.preserves {P : Chronicle → Prop} (hsteps : Steps c ls c')
    (hstep : ∀ {l : Label} {c c' : Chronicle}, Step c l c' → P c → P c') (h : P c) : P c' := by
  induction hsteps with
  | refl => exact h
  | tail _ hlast ih => exact hstep hlast ih

/-! ### What the inputs tell -/

/-- The failure and the delay are those that were in force, unless the label says that others are. -/
theorem Step.inForce (hstep : Step c l c') :
    c'.publisher.writer.failure = l.failure c.publisher.writer.failure ∧
      c'.publisher.writer.delay = l.delay c.publisher.writer.delay := by
  cases hstep with
  | ends => exact ⟨finish_failure _ _, finish_delay _ _⟩
  | begins | passes | fails | delays => exact ⟨rfl, rfl⟩

/-- The failure and the delay in force are those of the last input that changes them. -/
theorem steps_inForce (hsteps : Steps c ls c') :
    c'.publisher.writer.failure = (inputs ls).foldl Label.failure c.publisher.writer.failure ∧
      c'.publisher.writer.delay = (inputs ls).foldl Label.delay c.publisher.writer.delay := by
  induction hsteps with
  | refl => exact ⟨rfl, rfl⟩
  | @tail _ _ _ l _ hstep ih =>
    obtain ⟨hfailure, hdelay⟩ := hstep.inForce
    rw [hfailure, hdelay, inputs_append, List.foldl_append, List.foldl_append, ← ih.1, ← ih.2]
    cases l <;> exact ⟨rfl, rfl⟩

theorem Step.flights (hstep : Step c l c') : c'.publishes.map (·.toFlight) =
    c.publishes.map (·.toFlight) ++ (l.event?.map c.publisher.entering).toList := by
  cases hstep <;> simp [Label.event?]

/-- The publishes are those that there were and those that begin by an input. -/
theorem steps_flights (hsteps : Steps c ls c') :
    ∃ fs : List Flight, fs.map (·.event) = (inputs ls).filterMap Label.event? ∧
      c'.publishes.map (·.toFlight) = c.publishes.map (·.toFlight) ++ fs := by
  induction hsteps with
  | refl => exact ⟨[], rfl, (List.append_nil _).symm⟩
  | @tail c' _ ls l _ hstep ih =>
    obtain ⟨fs, hevents, hflights⟩ := ih
    refine ⟨fs ++ (l.event?.map c'.publisher.entering).toList, ?_, ?_⟩
    · rw [List.map_append, hevents, inputs_append, List.filterMap_append]
      cases l <;> rfl
    · rw [hstep.flights, hflights, List.append_assoc]

theorem events_of_steps {p : Publisher} (hsteps : Steps ⟨[], p⟩ ls c) :
    c.publishes.map (·.event) = (inputs ls).filterMap Label.event? := by
  obtain ⟨fs, hevents, hflights⟩ := steps_flights hsteps
  rw [← hevents]
  simpa [Function.comp_def] using congrArg (List.map Flight.event) hflights

/-- Time does not run back. -/
theorem Step.now_le (hstep : Step c l c') : c.publisher.now ≤ c'.publisher.now := by
  cases hstep with
  | ends =>
    dsimp only
    rw [finish_now]
    exact Nat.le_refl _
  | passes => exact Nat.le_max_left _ _
  | begins | fails | delays => exact Nat.le_refl _

theorem steps_now_le (hsteps : Steps c ls c') : c.publisher.now ≤ c'.publisher.now := by
  induction hsteps with
  | refl => exact Nat.le_refl _
  | tail _ hstep ih => exact Nat.le_trans ih hstep.now_le

end

/-! ### The books -/

/-- What a chronicle and its publisher have to do with one another. -/
structure Books (t : KeyTemplate) (before : List Message) (c : Chronicle) : Prop where
  template : c.publisher.template = some t
  flights : c.publisher.flights = c.publishes.filterMap Publish.flight?
  attempts : c.publisher.attempts.Perm (c.publishes.filterMap Publish.attempt?)
  recorded : c.publisher.Recorded t before
  onTime : ∀ f ∈ c.publisher.flights, c.publisher.now ≤ f.due
  past : ∀ a ∈ c.publishes, a.result.isSome → a.due ≤ c.publisher.now

variable {t : KeyTemplate} {before : List Message} {c c' : Chronicle} {l : Label} {ls : List Label}

theorem books_begins (h : Books t before c) (e : Event) :
    Books t before ⟨c.publishes ++ [⟨c.publisher.entering e, none⟩],
      c.publisher.withFlight (c.publisher.entering e)⟩ where
  template := h.template
  flights := by simp [withFlight, h.flights, Publish.flight?]
  attempts := by simpa [withFlight, Publish.attempt?, List.filterMap_cons] using h.attempts
  recorded := h.recorded
  onTime := by
    intro f hf
    rcases List.mem_append.mp hf with hold | hnew
    · exact h.onTime f hold
    · rw [List.mem_singleton.mp hnew]
      exact Nat.le_add_right _ _
  past := by
    intro a ha hended
    rcases List.mem_append.mp ha with hold | hnew
    · exact h.past a hold hended
    · rw [List.mem_singleton.mp hnew] at hended
      cases hended

theorem books_ends {earlier later : List Publish} {f : Flight} {p : Publisher} (hdue : f.due = p.now)
    (h : Books t before ⟨earlier ++ ⟨f, none⟩ :: later, p⟩) :
    Books t before ⟨earlier ++ ⟨f, some p.writer.result⟩ :: later,
      (p.withFlights ((earlier ++ later).filterMap Publish.flight?)).finish f.event⟩ where
  template := (finish_template _ _).trans h.template
  flights := by simp [withFlights, Publish.flight?]
  attempts := by
    rw [finish_attempts _ t ((withFlights_template p _).trans h.template)]
    refine (h.attempts.append_right _).trans ?_
    simp only [List.filterMap_append, List.filterMap_cons, Publish.attempt?, Option.map_none,
      Option.map_some, List.append_assoc]
    exact List.perm_append_comm.append_left _
  recorded := by
    refine finish_recorded ?_ ?_ f.event
    · exact h.template
    · exact h.recorded
  onTime := by
    intro f' hf'
    rw [finish_flights] at hf'
    rw [finish_now]
    refine h.onTime f' ?_
    rw [h.flights]
    exact (List.Sublist.filterMap _ ((List.sublist_cons_self _ _).append_left earlier)).subset hf'
  past := by
    intro a ha hended
    rw [finish_now]
    rcases List.mem_append.mp ha with hmem | hmem
    · exact h.past a (List.mem_append_left _ hmem) hended
    rcases List.mem_cons.mp hmem with rfl | hmem
    · exact Nat.le_of_eq hdue
    · exact h.past a (List.mem_append_right _ (List.mem_cons_of_mem _ hmem)) hended

theorem Step.books (hstep : Step c l c') (h : Books t before c) : Books t before c' := by
  cases hstep with
  | begins _ e => exact books_begins h e
  | ends earlier later f p hdue => exact books_ends hdue h
  | passes _ u hlater =>
    exact
      { template := h.template
        flights := h.flights
        attempts := h.attempts
        recorded := h.recorded
        onTime := fun f hf => Nat.max_le.mpr ⟨h.onTime f hf, hlater f hf⟩
        past := fun a ha hended => Nat.le_trans (h.past a ha hended) (Nat.le_max_left _ _) }
  | fails | delays =>
    exact ⟨h.template, h.flights, h.attempts, h.recorded, h.onTime, h.past⟩

theorem books_of_steps (hsteps : Steps c ls c') (h : Books t before c) : Books t before c' :=
  hsteps.preserves Step.books h

/-- As many publishes are in flight as were begun and have not ended. -/
theorem Books.length_eq (h : Books t before c) :
    c.publisher.flights.length + c.publisher.attempts.length = c.publishes.length := by
  rw [h.flights, h.attempts.length_eq]
  generalize c.publishes = publishes
  induction publishes with
  | nil => rfl
  | cons a publishes ih =>
    obtain ⟨f, result⟩ := a
    cases result with
    | none =>
      have hflight : (Publish.mk f none).flight? = some f := rfl
      have hattempt : (Publish.mk f none).attempt? = none := rfl
      rw [List.filterMap_cons_some hflight, List.filterMap_cons_none hattempt, List.length_cons,
        List.length_cons]
      omega
    | some result =>
      have hflight : (Publish.mk f (some result)).flight? = none := rfl
      have hattempt : (Publish.mk f (some result)).attempt? = some ⟨f.event, result⟩ := rfl
      rw [List.filterMap_cons_none hflight, List.filterMap_cons_some hattempt, List.length_cons,
        List.length_cons]
      omega

/-! ### Results -/

/-- A publish ends by a step: when its delay is over, with what is then in force. It leaves its message with
the writer if it succeeds, and nothing if it fails. -/
structure Ends (t : KeyTemplate) (c c' : Chronicle) (i : Nat) (a : Publish) : Prop where
  unended : a.result = none
  due : a.due = c.publisher.now
  outcome :
    (c.publisher.writer.failure = none ∧
      c'.publishes[i]? = some { a with result := some (.ok ()) } ∧
      c'.publisher.writer.messages = c.publisher.writer.messages ++ [t.message a.event]) ∨
    ∃ e, c.publisher.writer.failure = some e ∧
      c'.publishes[i]? = some { a with result := some (.error e) } ∧
      c'.publisher.writer.messages = c.publisher.writer.messages

theorem ends_at {earlier later : List Publish} {f : Flight} {p : Publisher} (hdue : f.due = p.now)
    (ht : p.template = some t) :
    Ends t ⟨earlier ++ ⟨f, none⟩ :: later, p⟩
      ⟨earlier ++ ⟨f, some p.writer.result⟩ :: later,
        (p.withFlights ((earlier ++ later).filterMap Publish.flight?)).finish f.event⟩
      earlier.length ⟨f, none⟩ where
  unended := rfl
  due := hdue
  outcome := by
    cases hfailure : p.writer.failure with
    | none =>
      refine Or.inl ⟨rfl, ?_, ?_⟩
      · simp [Writer.result, hfailure]
      · simp [finish, withFlights, ht, Writer.write, hfailure]
    | some e =>
      refine Or.inr ⟨e, rfl, ?_, ?_⟩
      · simp [Writer.result, hfailure]
      · simp [finish, withFlights, ht, Writer.write, hfailure]

/-- A step ends the publish of its label, and leaves every other as it is. -/
theorem Step.publish_cases (hstep : Step c l c') (ht : c.publisher.template = some t) {i : Nat}
    {a : Publish} (ha : c.publishes[i]? = some a) :
    (l = .ends i ∧ Ends t c c' i a) ∨ (l ≠ .ends i ∧ c'.publishes[i]? = some a) := by
  cases hstep with
  | begins _ e =>
    have hlt := (List.getElem?_eq_some_iff.mp ha).1
    exact Or.inr ⟨Label.noConfusion, (List.getElem?_append_left hlt).trans ha⟩
  | ends earlier later f p hdue =>
    by_cases hi : i = earlier.length
    · subst hi
      obtain rfl : a = ⟨f, none⟩ := by simpa using ha.symm
      exact Or.inl ⟨rfl, ends_at hdue ht⟩
    · refine Or.inr ⟨fun h => hi (Label.ends.inj h).symm, Eq.trans ?_ ha⟩
      simp only [List.getElem?_append, List.getElem?_cons]
      split_ifs
      · rfl
      · omega
      · rfl
  | passes | fails | delays => exact Or.inr ⟨Label.noConfusion, ha⟩

/-- A publish stays what it is; only its result is still to come, unless it has one. -/
theorem steps_keep (hsteps : Steps c ls c') (h : Books t before c) {i : Nat} {a : Publish}
    (ha : c.publishes[i]? = some a) :
    ∃ a', c'.publishes[i]? = some a' ∧ a'.toFlight = a.toFlight ∧ (a.result.isSome → a' = a) := by
  induction hsteps with
  | refl => exact ⟨a, ha, rfl, fun _ => rfl⟩
  | tail hsteps hstep ih =>
    obtain ⟨a', ha', hflight, hsame⟩ := ih
    rcases hstep.publish_cases (books_of_steps hsteps h).template ha' with ⟨-, hends⟩ | ⟨-, hkept⟩
    · have hunended : ¬ a.result.isSome = true := by
        intro hended
        rw [← hsame hended, hends.unended] at hended
        cases hended
      rcases hends.outcome with ⟨-, hresult, -⟩ | ⟨e, -, hresult, -⟩
      · exact ⟨_, hresult, hflight, fun hended => absurd hended hunended⟩
      · exact ⟨_, hresult, hflight, fun hended => absurd hended hunended⟩
    · exact ⟨a', hkept, hflight, hsame⟩

end CompanyRegistry.Publisher
