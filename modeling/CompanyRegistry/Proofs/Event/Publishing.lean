import CompanyRegistry.Proofs.Event.Dispatch
import CompanyRegistry.Proofs.Event.Waiting
import CompanyRegistry.Proofs.Text.Octets

/-!
# Publishing

`publishes_end_once`: in every run of a publisher that is switched on, each publish ends once and in its own
millisecond, with its message written or with the failure that is then in force; a publish that is waited for
is answered so; and a drain tells whether anything is left in flight, and changes nothing about the
publishes before it or after it. A publisher that is switched off accepts everything and writes nothing.

For the former every action is a sequence of steps, whose inputs are those of the action and no others
(`act_leads`); for the latter nothing is ever in flight (`Disabled`).
-/

namespace CompanyRegistry.Publisher

variable {t : KeyTemplate} {before : List Message} {c : Chronicle} {p : Publisher}

/-! ### Runs -/

/-- What is done with a publisher and its writer. -/
inductive Action
  | publish (e : Event)
  | start (e : Event)
  | fail (failure : Option TransportError)
  | delay (delay : Option Nat)
  | advance (ms : Nat)
  | settle
  | waitForMessages (count ms : Nat)
  | drain (ms : Nat)

/-- The events that an action publishes. -/
def Action.published : Action → List Event
  | .publish e | .start e => [e]
  | .fail _ | .delay _ | .advance _ | .settle | .waitForMessages .. | .drain _ => []

/-- What an action does to a publisher from outside. -/
def Action.inputs : Action → List Label
  | .publish e | .start e => [.begins e]
  | .fail failure => [.fails failure]
  | .delay ms => [.delays ms]
  | .advance _ | .settle | .waitForMessages .. | .drain _ => []

/-- An action of a publisher may be over at an instant: a publish when its delay is, a wait by its deadline. -/
def Action.OverAt (p : Publisher) (now : Nat) : Action → Prop
  | .publish _ => now = p.now + p.writer.delay.getD 0
  | .start _ | .fail _ | .delay _ | .settle => now = p.now
  | .advance ms => now = p.now + ms
  | .waitForMessages _ ms | .drain ms => p.now ≤ now ∧ now ≤ p.now + ms

/-- The publisher after an action. -/
def act (p : Publisher) : Action → Publisher
  | .publish e => (p.publish e).2
  | .start e => p.start e
  | .fail failure => p.setFailure failure
  | .delay delay => p.setDelay delay
  | .advance ms => p.advance ms
  | .settle => p.land
  | .waitForMessages count ms => (p.waitForMessages count ms).2
  | .drain ms => (p.drain ms).2

/-- The publisher after actions in a row. -/
def run (p : Publisher) (actions : List Action) : Publisher := actions.foldl act p

theorem drain_waits (hbooks : Books t before c) (ms : Nat) : Waits c (c.publisher.drain ms).2 :=
  waitUntil_waits _ _ _ hbooks (Nat.lt_succ_self _)

theorem act_leads (hbooks : Books t before c) (a : Action) :
    Leads c a.inputs (a.published.map c.publisher.entering) (c.publisher.act a) := by
  cases a with
  | publish e =>
    obtain ⟨ls, publishes, hsteps, hinputs, hflights, -⟩ := publish_steps hbooks e
    exact ⟨ls, publishes, hsteps, hinputs, hflights⟩
  | start e => exact start_leads hbooks e
  | fail failure =>
    exact ⟨_, c.publishes, (Step.fails c failure).steps, rfl, by simp [Action.published]⟩
  | delay delay =>
    exact ⟨_, c.publishes, (Step.delays c delay).steps, rfl, by simp [Action.published]⟩
  | advance ms => exact (advance_waits hbooks ms).leads
  | settle => exact (land_waits hbooks).leads
  | waitForMessages count ms => exact (waitUntil_waits _ _ _ hbooks (Nat.lt_succ_self _)).leads
  | drain ms => exact (drain_waits hbooks ms).leads

theorem run_steps (actions : List Action) (hbooks : Books t before c) :
    ∃ ls publishes, Steps c ls ⟨publishes, c.publisher.run actions⟩ ∧
      inputs ls = actions.flatMap Action.inputs ∧
      publishes.map (·.event) =
        c.publishes.map (·.event) ++ actions.flatMap Action.published := by
  induction actions generalizing c with
  | nil => exact ⟨[], c.publishes, .refl c, rfl, by simp⟩
  | cons a actions ih =>
    obtain ⟨ls, publishes, hsteps, hinputs, hflights⟩ := act_leads hbooks a
    have hevents : publishes.map (·.event) = c.publishes.map (·.event) ++ a.published := by
      simpa [Function.comp_def, entering] using congrArg (List.map Flight.event) hflights
    obtain ⟨ls', publishes', hsteps', hinputs', hevents'⟩ :=
      ih (c := ⟨publishes, _⟩) (books_of_steps hsteps hbooks)
    refine ⟨ls ++ ls', publishes', hsteps.trans hsteps', ?_, by simpa [hevents] using hevents'⟩
    rw [inputs_append, hinputs, hinputs', List.flatMap_cons]

theorem books_fresh (t : KeyTemplate) (w : Writer) (now : Nat) :
    Books t w.messages ⟨[], fresh t w now⟩ where
  template := rfl
  flights := rfl
  attempts := .refl _
  recorded := (List.append_nil _).symm
  onTime := fun _ hf => absurd hf List.not_mem_nil
  past := fun _ ha => absurd ha List.not_mem_nil

/-! ### Draining -/

/-- A wait for nothing to be in flight says at its end whether this is so. -/
theorem waitUntil_idle (fuel deadline : Nat) (p : Publisher) (hfuel : p.flights.length < fuel) :
    (waitUntil (·.flights.isEmpty) fuel p deadline).1 =
      (waitUntil (·.flights.isEmpty) fuel p deadline).2.flights.isEmpty := by
  induction fuel generalizing p with
  | zero => omega
  | succ fuel ih =>
    unfold waitUntil
    split
    · rename_i hidle
      exact hidle.symm
    · rename_i hbusy
      have hbusy' := (Bool.eq_false_iff.mpr hbusy).symm
      cases hnext : p.nextDue? with
      | none => exact hbusy'
      | some d =>
        dsimp only
        split
        · exact ih _ (Nat.lt_of_lt_of_le (flights_land_lt hnext) (Nat.le_of_lt_succ hfuel))
        · exact hbusy'

/-- A wait does not outlast its deadline, and lasts until then if it is in vain. -/
theorem waitUntil_now (holds : Publisher → Bool) (fuel deadline : Nat) (p : Publisher)
    (hnow : p.now ≤ deadline) :
    (waitUntil holds fuel p deadline).2.now ≤ deadline ∧
      ((waitUntil holds fuel p deadline).1 = false →
        (waitUntil holds fuel p deadline).2.now = deadline) := by
  have hvain : max p.now deadline ≤ deadline ∧ (false = false → max p.now deadline = deadline) :=
    ⟨Nat.max_le.mpr ⟨hnow, Nat.le_refl _⟩, fun _ => Nat.max_eq_right hnow⟩
  induction fuel generalizing p with
  | zero => exact hvain
  | succ fuel ih =>
    unfold waitUntil
    split
    · exact ⟨hnow, fun h => by cases h⟩
    · split
      · split
        · rename_i d _ hd
          have hnext : ({ p with now := max p.now d } : Publisher).land.now ≤ deadline := by
            rw [land_now]
            exact Nat.max_le.mpr ⟨hnow, Nat.le_of_lt hd⟩
          exact ih _ hnext ⟨Nat.max_le.mpr ⟨hnext, Nat.le_refl _⟩, fun _ => Nat.max_eq_right hnext⟩
        · exact hvain
      · exact hvain

/-- Every action is over when it says. -/
theorem act_overAt (hbooks : Books t before c) (a : Action) :
    a.OverAt c.publisher (c.publisher.act a).now := by
  have hwait : ∀ (holds : Publisher → Bool) (ms : Nat),
      c.publisher.now ≤ (waitUntil holds (c.publisher.flights.length + 1) c.publisher
        (c.publisher.now + ms)).2.now ∧
      (waitUntil holds (c.publisher.flights.length + 1) c.publisher
        (c.publisher.now + ms)).2.now ≤ c.publisher.now + ms := by
    intro holds ms
    have hwaits := waitUntil_waits holds _ (c.publisher.now + ms) hbooks (Nat.lt_succ_self _)
    exact ⟨hwaits.now_le, (waitUntil_now _ _ _ _ (Nat.le_add_right _ _)).1⟩
  cases a with
  | publish e => exact publish_now hbooks.template e
  | start e => exact start_now c.publisher e
  | fail | delay => rfl
  | advance ms =>
    have hnow := runUntil_now c.publisher.flights.length (c.publisher.now + ms) c.publisher
    rwa [Nat.max_eq_right (Nat.le_add_right _ _)] at hnow
  | settle => exact land_now c.publisher
  | waitForMessages | drain => exact hwait _ _

theorem drain_cases (p : Publisher) (ms : Nat) :
    (p.drain ms).2.now ≤ p.now + ms ∧
      ((p.drain ms).1 = true → (p.drain ms).2.flights = []) ∧
      ((p.drain ms).1 = false →
        (p.drain ms).2.flights ≠ [] ∧ (p.drain ms).2.now = p.now + ms) := by
  have hidle : (p.drain ms).1 = (p.drain ms).2.flights.isEmpty :=
    waitUntil_idle _ _ p (Nat.lt_succ_self _)
  obtain ⟨hnow, hvain⟩ := waitUntil_now (·.flights.isEmpty) (p.flights.length + 1) (p.now + ms) p
    (Nat.le_add_right _ _)
  refine ⟨hnow, ?_, ?_⟩
  · intro htrue
    exact List.isEmpty_iff.mp (hidle.symm.trans htrue)
  · intro hfalse
    refine ⟨?_, hvain hfalse⟩
    rintro hnone
    rw [hidle, hnone] at hfalse
    cases hfalse

/-! ### Switched off -/

/-- A publisher that is switched off has accepted these events and written nothing. -/
structure Disabled (before : List Message) (es : List Event) (p : Publisher) : Prop where
  template : p.template = none
  flights : p.flights = []
  messages : p.writer.messages = before
  attempts : p.attempts = es.map (⟨·, .ok ()⟩)

variable {es : List Event}

theorem land_of_flights_nil (h : p.flights = []) : p.land = p := by
  obtain ⟨template, w, now, flights, attempts⟩ := p
  obtain rfl : flights = [] := h
  simp [land, dueFlights]

theorem Disabled.atTime (h : Disabled before es p) (u : Nat) : Disabled before es (p.atTime u) :=
  ⟨h.template, h.flights, h.messages, h.attempts⟩

theorem Disabled.finish (h : Disabled before es p) (e : Event) :
    Disabled before (es ++ [e]) (p.finish e) where
  template := (finish_template p e).trans h.template
  flights := (finish_flights p e).trans h.flights
  messages := by simp [Publisher.finish, h.template, h.messages]
  attempts := by simp [Publisher.finish, h.template, h.attempts]

theorem Disabled.isInstant (h : Disabled before es p) : p.isInstant = true := by
  simp [Publisher.isInstant, h.template]

theorem Disabled.publish_eq (h : Disabled before es p) (e : Event) :
    p.publish e = (.ok (), p.finish e) := by
  have hland := land_of_flights_nil (h.finish e).flights
  simp only [Publisher.publish, h.isInstant, if_true, hland]
  rw [(h.finish e).attempts]
  simp

theorem Disabled.waitUntil (h : Disabled before es p) (holds : Publisher → Bool) (fuel deadline : Nat) :
    Disabled before es (waitUntil holds fuel p deadline).2 := by
  have hnone : p.nextDue? = none := nextDue?_eq_none_iff.mpr h.flights
  cases fuel with
  | zero => exact h.atTime deadline
  | succ fuel =>
    unfold Publisher.waitUntil
    rw [hnone]
    split
    · exact h
    · exact h.atTime deadline

theorem Disabled.act (h : Disabled before es p) (a : Action) :
    Disabled before (es ++ a.published) (p.act a) := by
  cases a with
  | publish e =>
    rw [Publisher.act, h.publish_eq]
    exact h.finish e
  | start e =>
    rw [Publisher.act, start, if_pos h.isInstant]
    exact h.finish e
  | fail | delay =>
    rw [Action.published, List.append_nil]
    exact ⟨h.template, h.flights, h.messages, h.attempts⟩
  | advance ms =>
    rw [Action.published, List.append_nil, Publisher.act, advance, h.flights, List.length_nil, runUntil]
    exact (land_of_flights_nil (h.atTime _).flights).symm ▸ h.atTime _
  | settle =>
    rw [Action.published, List.append_nil, Publisher.act, land_of_flights_nil h.flights]
    exact h
  | waitForMessages | drain =>
    rw [Action.published, List.append_nil]
    exact h.waitUntil _ _ _

theorem Disabled.run (actions : List Action) (h : Disabled before es p) :
    Disabled before (es ++ actions.flatMap Action.published) (p.run actions) := by
  induction actions generalizing p es with
  | nil => exact (List.append_nil es).symm ▸ h
  | cons a actions ih =>
    rw [List.flatMap_cons, ← List.append_assoc]
    exact ih (h.act a)

theorem disabled_idle (w : Writer) (now : Nat) : Disabled w.messages [] (idle none w now) :=
  ⟨rfl, rfl, rfl, rfl⟩

/-! ### Every run -/

theorem utf8_ne_nil {s : String} (h : s ≠ "") : Bytes.utf8 s ≠ [] := by
  intro hnil
  exact h (Bytes.utf8_injective hnil)

/-- The message of an event has its payload as it is, and never an empty key. -/
theorem message_eq (t : KeyTemplate) (e : Event) :
    (t.message e).value = e.payload ∧
      (t.message e).key =
        (if t.render e.entity e.kind = "" then none else some (Bytes.utf8 (t.render e.entity e.kind))) ∧
      (t.message e).key ≠ some [] := by
  refine ⟨rfl, rfl, ?_⟩
  unfold KeyTemplate.message
  dsimp only
  split_ifs with hempty
  · simp
  · intro hnil
    exact utf8_ne_nil hempty (Option.some.inj hnil)

/-- **Publishes end once.** A run of a publisher that is switched on is a sequence of steps, whose inputs are
those of its actions, in order; and at every moment of such a sequence

* the failure and the delay in force are those that the last of the inputs has set, and the publishes are those
  that began by an input;
* an action has its own inputs and no others, begins its own writes, and is over when it says;
* the writes in flight are the publishes that have not ended, none of which is overdue, and the attempts are
  those that have; so there are as many in flight as were begun less those that have ended, and the writer
  has the messages of the successful attempts, in order, and no other;
* a publish that has ended stays as it is, and one that ends by a step ends in the millisecond in which
  its delay is over, with its message and nothing else written, or with the failure that is then in
  force and nothing written;
* a publish that is waited for is answered with its result, which is that of the failure in force, since nothing
  else is put in force meanwhile;
* a drain is over by its deadline. It succeeds if nothing is in flight at its end; if it does not succeed, the
  deadline has come and something is. Either way it is made of such steps, in which nothing begins, so that all
  this holds of the publishes before and after it.

A message has the event's payload as its value, and the rendered template as its key, unless that is empty. A
publisher that is switched off answers every publish well and at once, and its writer gets nothing. -/
theorem publishes_end_once (w : Writer) (now : Nat) :
    (∀ t : KeyTemplate,
      (∀ actions : List Action, ∃ ls publishes,
        Steps ⟨[], fresh t w now⟩ ls ⟨publishes, (fresh t w now).run actions⟩ ∧
        inputs ls = actions.flatMap Action.inputs ∧
        publishes.map (·.event) = actions.flatMap Action.published) ∧
      ∀ {ls : List Label} {c : Chronicle}, Steps ⟨[], fresh t w now⟩ ls c →
        (c.publisher.writer.failure = (inputs ls).foldl Label.failure w.failure ∧
          c.publisher.writer.delay = (inputs ls).foldl Label.delay w.delay ∧
          c.publishes.map (·.event) = (inputs ls).filterMap Label.event?) ∧
        (∀ a : Action,
          Leads c a.inputs (a.published.map c.publisher.entering) (c.publisher.act a) ∧
          a.OverAt c.publisher (c.publisher.act a).now) ∧
        (c.publisher.flights = c.publishes.filterMap Publish.flight? ∧
          (∀ f ∈ c.publisher.flights, c.publisher.now ≤ f.due) ∧
          c.publisher.attempts.Perm (c.publishes.filterMap Publish.attempt?) ∧
          c.publisher.flights.length + c.publisher.attempts.length = c.publishes.length ∧
          c.publisher.writer.messages =
            w.messages ++ c.publisher.attempts.filterMap (Attempt.message? t)) ∧
        (∀ {c' : Chronicle} {i : Nat} {a : Publish}, c.publishes[i]? = some a →
          (∀ ls', Steps c ls' c' → a.result.isSome → c'.publishes[i]? = some a) ∧
          (∀ l, Step c l c' → (l = .ends i ∧ Ends t c c' i a) ∨
            (l ≠ .ends i ∧ c'.publishes[i]? = some a))) ∧
        (∀ e, ∃ ls' publishes, Steps c ls' ⟨publishes, (c.publisher.publish e).2⟩ ∧
          inputs ls' = [.begins e] ∧
          publishes.length = c.publishes.length + 1 ∧
          publishes[c.publishes.length]? =
            some ⟨c.publisher.entering e, some (c.publisher.publish e).1⟩ ∧
          (c.publisher.writer.failure = none → (c.publisher.publish e).1 = .ok ()) ∧
          ∀ f, c.publisher.writer.failure = some f → (c.publisher.publish e).1 = .error f) ∧
        ∀ ms, (c.publisher.drain ms).2.now ≤ c.publisher.now + ms ∧
          ((c.publisher.drain ms).1 = true → (c.publisher.drain ms).2.flights = []) ∧
          ((c.publisher.drain ms).1 = false → (c.publisher.drain ms).2.flights ≠ [] ∧
            (c.publisher.drain ms).2.now = c.publisher.now + ms) ∧
          Leads c [] [] (c.publisher.drain ms).2) ∧
    (∀ (t : KeyTemplate) (e : Event),
      (t.message e).value = e.payload ∧
      (t.message e).key =
        (if t.render e.entity e.kind = "" then none else some (Bytes.utf8 (t.render e.entity e.kind))) ∧
      (t.message e).key ≠ some []) ∧
    ∀ actions : List Action,
      let p := (idle none w now).run actions
      p.writer.messages = w.messages ∧ p.flights = [] ∧
      p.attempts = (actions.flatMap Action.published).map (⟨·, .ok ()⟩) ∧
      (∀ e, (p.publish e).1 = .ok () ∧ (p.publish e).2.now = p.now) ∧
      ∀ ms, (p.drain ms).1 = true := by
  refine ⟨?_, message_eq, ?_⟩
  · intro t
    have hfresh := books_fresh t w now
    refine ⟨fun actions => by simpa using run_steps actions hfresh, ?_⟩
    intro ls c hsteps
    have hbooks := books_of_steps hsteps hfresh
    obtain ⟨hfailure, hdelay⟩ := steps_inForce hsteps
    refine ⟨⟨hfailure, hdelay, events_of_steps hsteps⟩,
      fun a => ⟨act_leads hbooks a, act_overAt hbooks a⟩,
      ⟨hbooks.flights, hbooks.onTime, hbooks.attempts, hbooks.length_eq, hbooks.recorded⟩,
      ?_, ?_, ?_⟩
    · intro c' i a ha
      refine ⟨?_, fun l hstep => hstep.publish_cases hbooks.template ha⟩
      intro ls' hsteps' hended
      obtain ⟨a', ha', -, hsame⟩ := steps_keep hsteps' hbooks ha
      rw [ha', hsame hended]
    · intro e
      obtain ⟨ls', publishes, hsteps', hinputs, hflights, hresult⟩ := publish_steps hbooks e
      refine ⟨ls', publishes, hsteps', hinputs, by simpa using congrArg List.length hflights, hresult,
        ?_, ?_⟩
      · intro hnone
        rw [publish_answer hbooks, Writer.result, hnone]
      · intro f hsome
        rw [publish_answer hbooks, Writer.result, hsome]
    · intro ms
      obtain ⟨hnow, htrue, hfalse⟩ := drain_cases c.publisher ms
      exact ⟨hnow, htrue, hfalse, (drain_waits hbooks ms).leads⟩
  · intro actions
    have hdisabled := (disabled_idle w now).run actions
    refine ⟨hdisabled.messages, hdisabled.flights, hdisabled.attempts, ?_, ?_⟩
    · intro e
      rw [hdisabled.publish_eq e]
      exact ⟨rfl, finish_now _ e⟩
    · intro ms
      simp [drain, waitUntil, hdisabled.flights]

/-! Two publishes that overlap: the second begins later with a shorter delay, ends before the first, and
then the writer begins to fail. -/

def keyedTemplate : KeyTemplate := ⟨"", [.company]⟩

def overlappingActions : List Action :=
  [.start ⟨"a", .created, []⟩, .delay (some 3), .start ⟨"b", .created, []⟩, .advance 5,
    .fail (some .timeout)]

def overlapping : Publisher := (fresh keyedTemplate { delay := some 10 } 0).run overlappingActions

/-- The second publish has left its message, and ended for good. A drain until the tenth millisecond misses the
first publish, a longer one does not, and a publish that is waited for afterwards fails, since the failure is
in force that was set. -/
theorem overlapping_publishes_end :
    (∃ ls publishes, Steps ⟨[], fresh keyedTemplate { delay := some 10 } 0⟩ ls ⟨publishes, overlapping⟩ ∧
      inputs ls = [.begins ⟨"a", .created, []⟩, .delays (some 3), .begins ⟨"b", .created, []⟩,
        .fails (some .timeout)] ∧
      publishes.map (·.event.entity) = ["a", "b"] ∧
      overlapping.flights = publishes.filterMap Publish.flight? ∧
      overlapping.flights.length + overlapping.attempts.length = 2) ∧
    overlapping.writer.messages.filterMap Message.keyText? = ["b"] ∧
    overlapping.writer.failure = some .timeout ∧
    ((overlapping.drain 5).1 = false ∧ (overlapping.drain 5).2.flights ≠ [] ∧
      (overlapping.drain 6).1 = true ∧ (overlapping.drain 6).2.flights = []) ∧
    (∃ ls publishes b, Steps ⟨[], fresh keyedTemplate { delay := some 10 } 0⟩ ls
        ⟨publishes, (overlapping.publish ⟨"c", .created, []⟩).2⟩ ∧
      b.event.entity = "b" ∧ b.result.isSome ∧ publishes[1]? = some b ∧
      publishes[2]? = some ⟨⟨⟨"c", .created, []⟩, 8⟩, some (.error .timeout)⟩) := by
  obtain ⟨hon, -, -⟩ := publishes_end_once { delay := some 10 } 0
  obtain ⟨hruns, hall⟩ := hon keyedTemplate
  obtain ⟨ls, publishes, hsteps, hinputs, hevents⟩ := hruns overlappingActions
  obtain ⟨a, b, rfl⟩ : ∃ a b, publishes = [a, b] :=
    List.length_eq_two.mp
      (by simpa [overlappingActions, Action.published] using congrArg List.length hevents)
  have hentities : [a.event.entity, b.event.entity] = ["a", "b"] := by
    simpa [overlappingActions, Action.published] using congrArg (List.map Event.entity) hevents
  obtain ⟨⟨hfailure, -, -⟩, -, ⟨hflights, -, -, hcount, -⟩, hkeeps, hpublish, hdrain⟩ := hall hsteps
  rw [hinputs] at hfailure
  have hshort : (overlapping.drain 5).1 = false := by decide +kernel
  have hlong : (overlapping.drain 6).1 = true := by decide +kernel
  refine ⟨⟨ls, [a, b], hsteps, hinputs, hentities, hflights, hcount⟩, by decide +kernel, hfailure,
    ⟨hshort, ((hdrain 5).2.2.1 hshort).1, hlong, (hdrain 6).2.1 hlong⟩, ?_⟩
  obtain ⟨ls', publishes', hsteps', -, -, hresult, -, hfails⟩ := hpublish ⟨"c", .created, []⟩
  have hdue : (overlapping.entering ⟨"c", .created, []⟩).due = 8 := by decide +kernel
  have hb : b.event.entity = "b" := (List.cons.inj (List.cons.inj hentities).2).1
  -- only the first publish is still in flight
  have hended : b.result.isSome := by
    cases hresult : b.result with
    | some result => rfl
    | none =>
      have hmem : b.toFlight ∈ overlapping.flights := by
        refine (hflights : overlapping.flights = _) ▸ ?_
        exact List.mem_filterMap.mpr ⟨b, by simp, by simp [Publish.flight?, hresult]⟩
      have hfirst : ∀ f ∈ overlapping.flights, f.event.entity = "a" := by decide +kernel
      exact absurd (hb.symm.trans (hfirst _ hmem)) (by decide)
  refine ⟨ls ++ ls', publishes', b, hsteps.trans hsteps', hb, hended,
    (hkeeps rfl).1 ls' hsteps' hended, ?_⟩
  rw [← hdue, ← hfails .timeout hfailure]
  exact hresult

end CompanyRegistry.Publisher
