import CompanyRegistry.Proofs.Event.Settling

/-!
# The books of a queue

Three invariants of every move of a queue, each with its step lemma and its lemma for moves in a row:

* `Answers`: each offer has one ticket, which waits or was answered once, and the accepted events are
  those of the tickets that were answered well;
* `Placed`: every accepted event is in one place, senders wait only for a full channel of a queue that
  is not stopped, and a worker that has ended left nothing behind;
* `Writing`: the publisher is switched on, and its writer has the messages of the successful attempts.
-/

namespace CompanyRegistry.Queue

/-! ### Tickets and answers -/

/-- The event that an answer accepts, given the events that were offered, by ticket. -/
def grant (offered : List Event) : Nat × Except NotifyError Unit → Option Event
  | (ticket, .ok ()) => offered[ticket]?
  | (_, .error _) => none

/-- The events whose tickets were answered well. -/
def granted (offered : List Event) (q : Queue) : List Event := q.answered.filterMap (grant offered)

/-- What the answers of a queue say, given the events that were offered to it. -/
structure Answers (offered : List Event) (q : Queue) : Prop where
  tickets : q.nextTicket = offered.length
  once : (q.answered.map Prod.fst ++ q.waiting.map (·.ticket)).Perm (List.range offered.length)
  waits : ∀ s ∈ q.waiting, offered[s.ticket]? = some s.event
  grants : q.accepted = q.granted offered

theorem Answers.ticket_lt {offered : List Event} {q : Queue} (h : Answers offered q)
    {a : Nat × Except NotifyError Unit} (ha : a ∈ q.answered) : a.1 < offered.length := by
  have hmem : a.1 ∈ q.answered.map Prod.fst := List.mem_map.mpr ⟨a, ha, rfl⟩
  exact List.mem_range.mp (h.once.mem_iff.mp (List.mem_append_left _ hmem))

/-- Later offers change nothing about the answers given. -/
theorem Answers.granted_append {offered : List Event} {q : Queue} (h : Answers offered q)
    (es : List Event) : q.granted (offered ++ es) = q.granted offered := by
  refine List.filterMap_congr ?_
  rintro ⟨ticket, answer⟩ ha
  cases answer with
  | ok => exact List.getElem?_append_left (h.ticket_lt ha)
  | error => rfl

theorem Answers.waits_append {offered : List Event} {q : Queue} (h : Answers offered q)
    (es : List Event) : ∀ s ∈ q.waiting, (offered ++ es)[s.ticket]? = some s.event := by
  intro s hs
  have hold := h.waits s hs
  rw [List.getElem?_append_left (List.getElem?_eq_some_iff.mp hold).1]
  exact hold

theorem Answers.once_append {offered : List Event} {q : Queue} (h : Answers offered q) (e : Event) :
    (q.nextTicket :: (q.answered.map Prod.fst ++ q.waiting.map (·.ticket))).Perm
      (List.range (offered ++ [e]).length) := by
  rw [h.tickets, List.length_append, List.length_singleton, List.range_succ]
  exact (h.once.cons _).trans (List.perm_append_singleton _ _).symm

theorem answers_offer {offered : List Event} {q : Queue} (h : Answers offered q) (e : Event) :
    Answers (offered ++ [e]) (q.offer e) := by
  have htickets : q.nextTicket + 1 = (offered ++ [e]).length := by simp [h.tickets]
  -- a refusal gives the ticket a bad answer, whatever its reason
  have hrefuse : ∀ reason,
      Answers (offered ++ [e]) (q.numbered.refuse q.nextTicket reason) := fun reason =>
    { tickets := htickets
      once := by
        refine List.Perm.trans ?_ (h.once_append e)
        simp only [refuse, numbered, List.map_append, List.append_assoc]
        exact List.perm_middle
      waits := h.waits_append [e]
      grants := by
        simp only [granted, refuse, numbered, List.filterMap_append]
        rw [← granted, h.granted_append, ← h.grants]
        simp [grant] }
  rcases offer_cases q e with ⟨-, heq⟩ | ⟨-, -, heq⟩ | ⟨-, -, -, heq⟩ | ⟨-, -, -, heq⟩
  · exact heq ▸ hrefuse _
  · rw [heq]
    exact
      { tickets := htickets
        once := by
          refine List.Perm.trans ?_ (h.once_append e)
          simp only [accept, numbered, List.map_append, List.append_assoc]
          exact List.perm_middle
        waits := h.waits_append [e]
        grants := by
          simp only [granted, accept, numbered, List.filterMap_append]
          rw [← granted, h.granted_append, ← h.grants]
          simp [grant, h.tickets] }
  · exact heq ▸ hrefuse _
  · rw [heq]
    exact
      { tickets := htickets
        once := by
          refine List.Perm.trans ?_ (h.once_append e)
          simp only [numbered, List.map_append, ← List.append_assoc]
          exact List.perm_append_singleton _ _
        waits := by
          intro s hs
          rcases List.mem_append.mp hs with hold | hnew
          · exact h.waits_append [e] s hold
          · rw [List.mem_singleton.mp hnew]
            simp [h.tickets]
        grants := by
          show q.accepted = q.granted (offered ++ [e])
          rw [h.granted_append, h.grants] }

/-- A sender that is let in gets a good answer. -/
theorem answers_letIn {offered : List Event} {q : Queue} (h : Answers offered q) :
    Answers offered q.letIn := by
  rcases letIn_cases q with ⟨-, heq⟩ | ⟨s, rest, hwaiting, heq⟩
  · rw [heq]
    exact h
  · rw [heq]
    exact
      { tickets := h.tickets
        once := by
          refine List.Perm.trans ?_ h.once
          simp only [accept, hwaiting, List.map_append, List.map_cons, List.append_assoc]
          exact List.Perm.refl _
        waits := fun s' hs' => h.waits s' (hwaiting ▸ List.mem_cons_of_mem s hs')
        grants := by
          have hs := h.waits s (hwaiting ▸ List.mem_cons_self)
          simp only [granted, accept, List.filterMap_append]
          rw [← granted, ← h.grants]
          simp [grant, hs] }

theorem answers_stop {offered : List Event} {q : Queue} (h : Answers offered q) :
    Answers offered q.stop where
  tickets := h.tickets
  once := by
    simpa [stop, Function.comp_def] using h.once
  waits := by simp [stop]
  grants := by
    have hnone : (q.waiting.map fun s => (s.ticket, (.error .shuttingDown : Except NotifyError Unit))).filterMap
        (grant offered) = [] := by
      simp [List.filterMap_map, grant, Function.comp_def]
    simp only [granted, stop, List.filterMap_append, hnone, List.append_nil]
    exact h.grants

theorem Move.answers {offered es : List Event} {q q' : Queue} (hmove : Move q es q')
    (h : Answers offered q) : Answers (offered ++ es) q' := by
  cases hmove with
  | offer e => exact answers_offer h e
  | work hstep =>
    rw [List.append_nil]
    rcases workerStep_cases hstep with ⟨e, -, -, rfl⟩ | ⟨e, rest, -, -, rfl⟩ | ⟨-, -, -, -, rfl⟩
    · exact ⟨h.tickets, h.once, h.waits, h.grants⟩
    · exact answers_letIn ⟨h.tickets, h.once, h.waits, h.grants⟩
    · exact ⟨h.tickets, h.once, h.waits, h.grants⟩
  | stop =>
    rw [List.append_nil]
    exact answers_stop h
  | land | wait | fail | delay =>
    rw [List.append_nil]
    exact ⟨h.tickets, h.once, h.waits, h.grants⟩

theorem Moves.answers {offered es : List Event} {q q' : Queue} (hmoves : Moves q es q')
    (h : Answers offered q) : Answers (offered ++ es) q' := by
  induction hmoves with
  | none => simpa using h
  | next _ hmove ih => simpa using hmove.answers ih

/-- Answers are final: moves only add to them. -/
theorem Move.answered_prefix {es : List Event} {q q' : Queue} (hmove : Move q es q') :
    q.answered <+: q'.answered := by
  cases hmove with
  | offer e =>
    rcases offer_cases q e with ⟨-, h⟩ | ⟨-, -, h⟩ | ⟨-, -, -, h⟩ | ⟨-, -, -, h⟩
    · exact h ▸ List.prefix_append _ _
    · exact h ▸ List.prefix_append _ _
    · exact h ▸ List.prefix_append _ _
    · exact h ▸ List.prefix_refl _
  | work hstep =>
    rcases workerStep_cases hstep with ⟨e, -, -, rfl⟩ | ⟨e, rest, -, -, rfl⟩ | ⟨-, -, -, -, rfl⟩
    · exact List.prefix_refl _
    · rcases letIn_cases { q with held := some e, channel := rest } with
        ⟨-, h⟩ | ⟨s, others, -, h⟩
      · exact ⟨[], by rw [List.append_nil, h]⟩
      · exact h ▸ List.prefix_append _ _
    · exact List.prefix_refl _
  | stop => exact List.prefix_append _ _
  | land | wait | fail | delay => exact List.prefix_refl _

theorem Moves.answered_prefix {es : List Event} {q q' : Queue} (hmoves : Moves q es q') :
    q.answered <+: q'.answered := by
  induction hmoves with
  | none => exact List.prefix_refl _
  | next _ hmove ih => exact ih.trans hmove.answered_prefix

theorem lookup_eq_some_of_mem {answers : List (Nat × Except NotifyError Unit)} {ticket : Nat}
    {answer : Except NotifyError Unit} (hnodup : (answers.map Prod.fst).Nodup)
    (hmem : (ticket, answer) ∈ answers) : answers.lookup ticket = some answer := by
  induction answers with
  | nil => cases hmem
  | cons first rest ih =>
    obtain ⟨hfirst, hrest⟩ := List.nodup_cons.mp hnodup
    rcases List.mem_cons.mp hmem with rfl | hmem
    · exact List.lookup_cons_self
    · have hne : ticket ≠ first.1 := by
        rintro rfl
        exact hfirst (List.mem_map.mpr ⟨_, hmem, rfl⟩)
      rw [List.lookup_cons, beq_eq_false_iff_ne.mpr hne]
      exact ih hrest hmem

theorem Answers.answer?_eq_some_iff {offered : List Event} {q : Queue} (h : Answers offered q)
    {ticket : Nat} {answer : Except NotifyError Unit} :
    q.answer? ticket = some answer ↔ (ticket, answer) ∈ q.answered := by
  have hnodup : (q.answered.map Prod.fst).Nodup :=
    (List.nodup_append.mp (h.once.nodup_iff.mpr List.nodup_range)).1
  constructor
  · intro hanswer
    obtain ⟨before, after, heq, -⟩ := List.lookup_eq_some_iff.mp hanswer
    simp [heq]
  · exact lookup_eq_some_of_mem hnodup

/-- An answer stays what it is. -/
theorem Moves.answer?_eq_some {offered es : List Event} {q q' : Queue} (hmoves : Moves q es q')
    (h : Answers offered q) {ticket : Nat} {answer : Except NotifyError Unit}
    (hanswer : q.answer? ticket = some answer) : q'.answer? ticket = some answer := by
  rw [h.answer?_eq_some_iff] at hanswer
  rw [(hmoves.answers h).answer?_eq_some_iff]
  exact hmoves.answered_prefix.subset hanswer

/-! ### Places -/

/-- The events in the places where an accepted event can be: the channel, the worker, the writes in
flight and the attempts. -/
def places (q : Queue) : List Event :=
  q.channel ++ q.held.toList ++ q.publisher.flights.map (·.event) ++
    q.publisher.attempts.map (·.event)

/-- Where the events of a queue are. -/
structure Placed (q : Queue) : Prop where
  conserved : q.accepted.Perm q.places
  crowded : q.waiting ≠ [] → q.stopped = false ∧ q.capacity ≤ q.channel.length
  ended : q.workerEnded = true → q.stopped = true ∧ q.held = none ∧ q.channel = []

theorem places_perm (q : Queue) :
    q.places.Perm (q.publisher.entrusted ++ (q.held.toList ++ q.channel)) := by
  unfold places Publisher.entrusted
  rw [List.append_assoc]
  refine List.perm_append_comm.trans ?_
  exact List.perm_append_comm.append List.perm_append_comm

theorem placed_offer {q : Queue} (h : Placed q) (e : Event) : Placed (q.offer e) := by
  rcases offer_cases q e with ⟨-, heq⟩ | ⟨hopen, hroom, heq⟩ | ⟨-, -, -, heq⟩ |
    ⟨hopen, hroom, -, heq⟩
  · exact heq ▸ ⟨h.conserved, h.crowded, h.ended⟩
  · rw [heq]
    exact
      { conserved := by
          refine (h.conserved.append_right [e]).trans ?_
          simp only [places, accept, numbered, List.append_assoc]
          refine List.Perm.append_left _ ?_
          simp only [← List.append_assoc]
          exact List.perm_append_singleton _ _
        crowded := fun hwaiting => absurd hroom.2 hwaiting
        ended := fun hended => by
          have hstopped := (h.ended hended).1
          rw [hopen] at hstopped
          cases hstopped }
  · exact heq ▸ ⟨h.conserved, h.crowded, h.ended⟩
  · rw [heq]
    refine ⟨h.conserved, fun _ => ⟨hopen, ?_⟩, h.ended⟩
    by_cases hwaiting : q.waiting = []
    · exact Nat.le_of_not_lt fun hlt => hroom ⟨hlt, hwaiting⟩
    · exact (h.crowded hwaiting).2

theorem placed_work {q q' : Queue} (h : Placed q) (hstep : q.workerStep? = some q') :
    Placed q' := by
  rcases workerStep_cases hstep with ⟨e, hheld, -, rfl⟩ | ⟨e, rest, hheld, hchannel, rfl⟩ |
    ⟨hheld, hchannel, hstopped, -, rfl⟩
  · exact
      { conserved := by
          refine (h.conserved.trans (places_perm q)).trans ?_
          refine List.Perm.trans ?_ (places_perm _).symm
          rw [hheld, Option.toList_some, ← List.append_assoc]
          exact (Publisher.start_entrusted q.publisher e).symm.append_right _
        crowded := h.crowded
        ended := fun hended => ⟨(h.ended hended).1, rfl, (h.ended hended).2.2⟩ }
  · have hnot : q.workerEnded = false := by
      refine Bool.eq_false_iff.mpr ?_
      intro hended
      have hempty := (h.ended hended).2.2
      rw [hchannel] at hempty
      cases hempty
    have hconserved : q.accepted.Perm (places { q with held := some e, channel := rest }) := by
      refine h.conserved.trans ?_
      simp only [places, hheld, hchannel, Option.toList_none, Option.toList_some, List.append_nil]
      exact ((List.perm_append_singleton e rest).symm.append_right _).append_right _
    rcases letIn_cases { q with held := some e, channel := rest } with
      ⟨hwaiting, heq⟩ | ⟨s, others, hwaiting, heq⟩
    · rw [heq]
      refine ⟨hconserved, fun hsome => absurd hwaiting hsome, ?_⟩
      intro hended
      cases hnot.symm.trans hended
    · -- the sender takes the room that the worker made, so the channel stays full
      have hcrowded := h.crowded (by rw [show q.waiting = s :: others from hwaiting]; simp)
      rw [heq]
      exact
        { conserved := by
            refine (hconserved.append_right [s.event]).trans ?_
            simp only [places, accept, List.append_assoc]
            refine List.Perm.append_left _ ?_
            simp only [← List.append_assoc]
            exact List.perm_append_singleton _ _
          crowded := fun _ => by
            refine ⟨hcrowded.1, ?_⟩
            have hlength := hcrowded.2
            rw [hchannel] at hlength
            simpa [accept, capacity] using hlength
          ended := fun hended => by cases hnot.symm.trans hended }
  · exact ⟨h.conserved, h.crowded, fun _ => ⟨hstopped, hheld, hchannel⟩⟩

theorem Move.placed {es : List Event} {q q' : Queue} (hmove : Move q es q') (h : Placed q) :
    Placed q' := by
  cases hmove with
  | offer e => exact placed_offer h e
  | work hstep => exact placed_work h hstep
  | land =>
    refine ⟨?_, h.crowded, h.ended⟩
    refine (h.conserved.trans (places_perm q)).trans ?_
    exact ((Publisher.land_entrusted q.publisher).symm.append_right _).trans
      (places_perm q.landed).symm
  | stop =>
    exact ⟨h.conserved, fun hwaiting => absurd rfl hwaiting, fun hended => ⟨rfl, (h.ended hended).2⟩⟩
  | wait | fail | delay => exact ⟨h.conserved, h.crowded, h.ended⟩

theorem Moves.placed {es : List Event} {q q' : Queue} (hmoves : Moves q es q') (h : Placed q) :
    Placed q' :=
  hmoves.preserves Move.placed h

/-! ### Messages -/

/-- The publisher writes with a template, and its writer has recorded what it should. -/
structure Writing (t : KeyTemplate) (before : List Message) (q : Queue) : Prop where
  template : q.publisher.template = some t
  recorded : q.publisher.Recorded t before

theorem Move.writing {t : KeyTemplate} {before : List Message} {es : List Event} {q q' : Queue}
    (hmove : Move q es q') (h : Writing t before q) : Writing t before q' := by
  cases hmove with
  | offer e =>
    rcases offer_cases q e with ⟨-, heq⟩ | ⟨-, -, heq⟩ | ⟨-, -, -, heq⟩ | ⟨-, -, -, heq⟩ <;>
      exact heq ▸ ⟨h.template, h.recorded⟩
  | work hstep =>
    rcases workerStep_cases hstep with ⟨e, -, -, rfl⟩ | ⟨e, rest, -, -, rfl⟩ | ⟨-, -, -, -, rfl⟩
    · exact ⟨(Publisher.start_template _ e).trans h.template,
        Publisher.start_recorded h.template h.recorded e⟩
    · refine ⟨?_, ?_⟩ <;> rw [letIn_publisher]
      · exact h.template
      · exact h.recorded
    · exact ⟨h.template, h.recorded⟩
  | land =>
    exact ⟨(Publisher.land_template q.publisher).trans h.template,
      Publisher.land_recorded h.template h.recorded⟩
  | wait | fail | delay | stop => exact ⟨h.template, h.recorded⟩

theorem Moves.writing {t : KeyTemplate} {before : List Message} {es : List Event} {q q' : Queue}
    (hmoves : Moves q es q') (h : Writing t before q) : Writing t before q' :=
  hmoves.preserves Move.writing h

end CompanyRegistry.Queue
