import CompanyRegistry.Proofs.Event.Accounts

/-!
# Accepted events are neither lost nor doubled

`accepted_events_conserved`: at every moment of every run of a queue over an enabled publisher, the events
whose offer was answered well are, each as often as it was accepted, those in the channel, with the
worker, in flight and attempted; an attempt left one message or none; and an event whose offers were
all refused is nowhere among them, then or later.

The moments are those of `Moves`, so no order of offers, worker steps, landings, changes of the writer
and stops is left out. That the answer of `notify` is the answer of its ticket rests on the end of its
wait (`notify_answer`).
-/

namespace CompanyRegistry.Queue

/-! ### The start of a queue -/

theorem answers_start (p : Publisher) (config : QueueConfig) : Answers [] (start p config) where
  tickets := rfl
  once := List.Perm.refl _
  waits := fun _ hs => absurd hs List.not_mem_nil
  grants := rfl

theorem placed_start (t : KeyTemplate) (w : Writer) (now : Nat) (config : QueueConfig) :
    Placed (start (.fresh t w now) config) where
  conserved := List.Perm.refl _
  crowded := fun hwaiting => absurd rfl hwaiting
  ended := fun hended => by cases hended

theorem writing_start (t : KeyTemplate) (w : Writer) (now : Nat) (config : QueueConfig) :
    Writing t w.messages (start (.fresh t w now) config) where
  template := rfl
  recorded := (List.append_nil _).symm

/-! ### A sender gets its answer -/

/-- In a settled queue, a ticket without an answer waits for a write to end. -/
theorem flights_ne_nil_of_unanswered {offered : List Event} {q : Queue} {ticket : Nat}
    (hanswers : Answers offered q) (hplaced : Placed q) (hsettled : q.Settled)
    (hlt : ticket < offered.length) (hnone : (q.answer? ticket).isSome = false) :
    q.publisher.flights ≠ [] := by
  have hwaiting : q.waiting ≠ [] := by
    intro hempty
    have hmem := hanswers.once.mem_iff.mpr (List.mem_range.mpr hlt)
    rw [hempty, List.map_nil, List.append_nil] at hmem
    obtain ⟨⟨_, answer⟩, hanswer, rfl⟩ := List.mem_map.mp hmem
    rw [hanswers.answer?_eq_some_iff.mpr hanswer] at hnone
    cases hnone
  obtain ⟨-, hfull⟩ := hplaced.crowded hwaiting
  have hpos := q.capacity_pos
  exact hsettled.flights_ne_nil (Or.inr (List.ne_nil_of_length_pos (by omega)))

/-- What `notify` returns is the answer that its ticket was given. -/
theorem notify_answer {offered : List Event} {q : Queue} (hanswers : Answers offered q)
    (hplaced : Placed q) (e : Event) :
    (q.notify e).2.answer? q.nextTicket = some (q.notify e).1 := by
  have hoffer := Move.offer q e
  unfold notify
  dsimp only
  split
  · assumption
  · have hsettle := hoffer.moves.andThen (settle_moves _)
    have hholds := runUntil_holds (fun q' => (q'.answer? q.nextTicket).isSome)
      (fun q' => Answers (offered ++ [e]) q' ∧ Placed q')
      (fun hinv hmoves => ⟨by simpa using hmoves.answers hinv.1, hmoves.placed hinv.2⟩)
      (fun hinv hsettled => flights_ne_nil_of_unanswered hinv.1 hinv.2 hsettled
        (by simp [hanswers.tickets]))
      ((q.offer e).settle.unfinished + 1) (q.offer e).settle
      ⟨hsettle.answers hanswers, hsettle.placed hplaced⟩ (settle_settled _) (Nat.lt_succ_self _)
    obtain ⟨answer, hanswer⟩ := Option.isSome_iff_exists.mp hholds
    simp [hanswer]

/-! ### Conservation -/

theorem granted_perm_places {offered : List Event} {q : Queue} (hanswers : Answers offered q)
    (hplaced : Placed q) : (q.granted offered).Perm q.places := by
  rw [← hanswers.grants]
  exact hplaced.conserved

/-- An event with a good answer has a ticket with a good answer. -/
theorem exists_ticket_of_granted {offered : List Event} {q : Queue} (h : Answers offered q)
    {e : Event} (he : e ∈ q.granted offered) :
    ∃ ticket, offered[ticket]? = some e ∧ q.answer? ticket = some (.ok ()) := by
  obtain ⟨⟨ticket, answer⟩, hmem, hgrant⟩ := List.mem_filterMap.mp he
  cases answer with
  | ok => exact ⟨ticket, hgrant, h.answer?_eq_some_iff.mpr hmem⟩
  | error => cases hgrant

/-- An event whose offers were all refused never gets into the queue. -/
theorem refused_not_mem_places {offered es : List Event} {q q' : Queue} {e : Event}
    (hanswers : Answers offered q) (hplaced : Placed q) (hmoves : Moves q es q')
    (hrefused : ∀ ticket, offered[ticket]? = some e →
      ∃ reason, q.answer? ticket = some (.error reason))
    (hnew : e ∉ es) : e ∉ q'.places := by
  intro hmem
  have hanswers' := hmoves.answers hanswers
  have hgranted := (granted_perm_places hanswers' (hmoves.placed hplaced)).mem_iff.mpr hmem
  obtain ⟨ticket, hticket, hgood⟩ := exists_ticket_of_granted hanswers' hgranted
  -- the ticket is an old one, since the event is not offered again, and its answer is final
  rw [List.getElem?_append] at hticket
  split at hticket
  · obtain ⟨reason, hbad⟩ := hrefused ticket hticket
    cases hgood.symm.trans (hmoves.answer?_eq_some hanswers hbad)
  · exact hnew (List.mem_of_getElem? hticket)

/-- **No accepted event is lost or doubled.** For every template, writer, capacity, policy and number of
slots: a run of actions is a sequence of moves, and at every moment of such a sequence

* each offer has a ticket, which waits for space or was answered, once, and `notify` returns the
  answer of its ticket;
* the events of the good answers are exactly those in the channel, with the worker, in flight and
  attempted;
* the writer has recorded one message for each successful attempt, in order, and no other;
* an event whose offers were all refused is in none of the places, and gets into none later unless it
  is offered again. -/
theorem accepted_events_conserved (t : KeyTemplate) (w : Writer) (now : Nat)
    (config : QueueConfig) :
    (∀ actions : List Action,
      Moves (start (.fresh t w now) config) (actions.flatMap Action.offered)
        ((start (.fresh t w now) config).run actions)) ∧
    ∀ (offered : List Event) (q : Queue), Moves (start (.fresh t w now) config) offered q →
      (q.answered.map Prod.fst ++ q.waiting.map (·.ticket)).Perm (List.range offered.length) ∧
      (∀ e, (q.notify e).2.answer? offered.length = some (q.notify e).1) ∧
      (q.granted offered).Perm
        (q.channel ++ q.held.toList ++ q.publisher.flights.map (·.event) ++
          q.publisher.attempts.map (·.event)) ∧
      q.publisher.writer.messages =
        w.messages ++ q.publisher.attempts.filterMap (Attempt.message? t) ∧
      ∀ e, (∀ ticket, offered[ticket]? = some e →
          ∃ reason, q.answer? ticket = some (.error reason)) →
        ∀ es q', Moves q es q' → e ∉ es → e ∉ q'.places := by
  refine ⟨run_moves _, ?_⟩
  intro offered q hmoves
  have hanswers : Answers offered q := by simpa using hmoves.answers (answers_start _ config)
  have hplaced := hmoves.placed (placed_start t w now config)
  have hwriting := hmoves.writing (writing_start t w now config)
  refine ⟨hanswers.once, ?_, granted_perm_places hanswers hplaced, hwriting.recorded, ?_⟩
  · intro e
    rw [← hanswers.tickets]
    exact notify_answer hanswers hplaced e
  · intro e hrefused es q' hmoves' hnew
    exact refused_not_mem_places hanswers hplaced hmoves' hrefused hnew

/-- A queue with one place and one slot, in front of a writer that takes five milliseconds. -/
def narrowQueue (backpressure : Backpressure) : Queue :=
  start (.fresh ⟨"", []⟩ { delay := some 5 } 0) { capacity := 1, backpressure, maxInFlight := 1 }

/-- Events about four companies, each handed on as far as it gets. -/
def fourOffers : List Action :=
  ["a", "b", "c", "d"].flatMap fun entity => [.offer ⟨entity, .created, []⟩, .settle]

/-- Of four events, the narrow queue has one in flight, one with the worker and one in the channel; the
fourth is refused, and is not found in it however the run goes on. -/
theorem narrowQueue_conserved :
    (((narrowQueue .reject).run fourOffers).places.map (·.entity) = ["c", "b", "a"] ∧
      ((narrowQueue .reject).run fourOffers).answer? 3 = some (.error .queueFull)) ∧
    (((narrowQueue .reject).run fourOffers).granted (fourOffers.flatMap Action.offered)).Perm
      ((narrowQueue .reject).run fourOffers).places ∧
    ∀ es q', Moves ((narrowQueue .reject).run fourOffers) es q' → ⟨"d", .created, []⟩ ∉ es →
      ⟨"d", .created, []⟩ ∉ q'.places := by
  obtain ⟨hruns, hall⟩ := accepted_events_conserved ⟨"", []⟩ { delay := some 5 } 0
    { capacity := 1, backpressure := .reject, maxInFlight := 1 }
  obtain ⟨-, -, hconserved, -, hrefused⟩ := hall _ _ (hruns fourOffers)
  have hanswer : ((narrowQueue .reject).run fourOffers).answer? 3 = some (.error .queueFull) := by
    decide +kernel
  refine ⟨⟨by decide +kernel, hanswer⟩, hconserved, hrefused ⟨"d", .created, []⟩ ?_⟩
  intro ticket hticket
  rcases ticket with _ | _ | _ | _ | n
  · exact absurd hticket (by decide)
  · exact absurd hticket (by decide)
  · exact absurd hticket (by decide)
  · exact ⟨_, hanswer⟩
  · cases hticket

end CompanyRegistry.Queue
