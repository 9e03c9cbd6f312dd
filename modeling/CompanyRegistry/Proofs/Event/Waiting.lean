import CompanyRegistry.Proofs.Event.Chronicle

/-!
# Publishers that wait

Whatever is done with a publisher is a sequence of steps: `Leads` says so for one operation after another, with
the inputs of its steps and the writes that it begins. To wait is to let writes end and time pass without any
input (`Waits`). The clock is the point: `runUntil` and `waitUntil` stop at the end of every write on their way,
for which the number of writes in flight is enough (`runUntil_waits`, `waitUntil_waits`).

A publish that is waited for is one more write in flight beside those that end meanwhile
(`runUntil_withFlight`), and is answered with its result (`publish_steps`).
-/

namespace CompanyRegistry.Publisher

variable {t : KeyTemplate} {before : List Message} {c c' : Chronicle} {p : Publisher} {ls : List Label}

/-- Steps with these inputs lead to a publisher, and begin these writes meanwhile. -/
def Leads (c : Chronicle) (given : List Label) (fs : List Flight) (p : Publisher) : Prop :=
  ∃ ls publishes, Steps c ls ⟨publishes, p⟩ ∧ inputs ls = given ∧
    publishes.map (·.toFlight) = c.publishes.map (·.toFlight) ++ fs

/-- Steps without an input lead to a publisher: writes end and time passes. -/
def Waits (c : Chronicle) (p : Publisher) : Prop :=
  ∃ ls publishes, Steps c ls ⟨publishes, p⟩ ∧ inputs ls = []

theorem flights_of_inputs_nil (hsteps : Steps c ls c') (h : inputs ls = []) :
    c'.publishes.map (·.toFlight) = c.publishes.map (·.toFlight) := by
  obtain ⟨fs, hevents, hflights⟩ := steps_flights hsteps
  rw [h, List.filterMap_nil, List.map_eq_nil_iff] at hevents
  rw [hflights, hevents, List.append_nil]

theorem Waits.leads (h : Waits c p) : Leads c [] [] p := by
  obtain ⟨ls, publishes, hsteps, hinputs⟩ := h
  refine ⟨ls, publishes, hsteps, hinputs, ?_⟩
  rw [flights_of_inputs_nil hsteps hinputs, List.append_nil]

theorem Waits.now_le (h : Waits c p) : c.publisher.now ≤ p.now := by
  obtain ⟨ls, publishes, hsteps, -⟩ := h
  exact steps_now_le hsteps

theorem Waits.refl (c : Chronicle) : Waits c c.publisher := ⟨[], c.publishes, .refl c, rfl⟩

theorem Waits.andThen {p' : Publisher} (h : Waits c p) (hbooks : Books t before c)
    (h' : ∀ publishes, Books t before ⟨publishes, p⟩ → Waits ⟨publishes, p⟩ p') : Waits c p' := by
  obtain ⟨ls, publishes, hsteps, hinputs⟩ := h
  obtain ⟨ls', publishes', hsteps', hinputs'⟩ := h' publishes (books_of_steps hsteps hbooks)
  refine ⟨ls ++ ls', publishes', hsteps.trans hsteps', ?_⟩
  rw [inputs_append, hinputs, hinputs', List.append_nil]

theorem atTime_waits {u : Nat} (h : ∀ f ∈ c.publisher.flights, u ≤ f.due) :
    Waits c (c.publisher.atTime u) :=
  ⟨[.passes u], c.publishes, (Step.passes c u h).steps, rfl⟩

/-! ### Landing -/

/-- The last publish ends. -/
theorem step_ends_last {publishes : List Publish} {f : Flight} (hdue : f.due = p.now)
    (h : Books t before ⟨publishes ++ [⟨f, none⟩], p.withFlight f⟩) :
    Step ⟨publishes ++ [⟨f, none⟩], p.withFlight f⟩ (.ends publishes.length)
      ⟨publishes ++ [⟨f, some p.writer.result⟩], p.finish f.event⟩ := by
  have hflights : p.flights = publishes.filterMap Publish.flight? := by
    simpa [withFlight, Publish.flight?] using h.flights
  have hrest : (p.withFlight f).withFlights ((publishes ++ []).filterMap Publish.flight?) = p := by
    rw [List.append_nil, ← hflights]
    rfl
  have hstep := Step.ends publishes [] f (p.withFlight f) hdue
  rw [hrest] at hstep
  exact hstep

/-! Ending a write looks neither at the clock nor at the writes in flight. -/

theorem withFlights_finish (p : Publisher) (e : Event) (fs gs : List Flight) :
    ((p.withFlights fs).finish e).withFlights gs = (p.withFlights gs).finish e := by
  unfold finish
  dsimp only [withFlights]
  split <;> rfl

theorem finish_withFlight (p : Publisher) (e : Event) (x : Flight) :
    (p.withFlight x).finish e = (p.finish e).withFlight x := by
  unfold finish
  dsimp only [withFlight]
  split <;> rfl

theorem finish_atTime (p : Publisher) (e : Event) (u : Nat) :
    (p.atTime u).finish e = (p.finish e).atTime u := by
  unfold finish
  dsimp only [atTime]
  split <;> rfl

theorem finishAll_comm {change : Publisher → Publisher}
    (h : ∀ p e, (change p).finish e = change (p.finish e)) (fs : List Flight) (p : Publisher) :
    (change p).finishAll fs = change (p.finishAll fs) := by
  induction fs generalizing p with
  | nil => rfl
  | cons f fs ih => rw [finishAll_cons, finishAll_cons, h, ih]

/-- Due writes end one after another, in whatever order. -/
theorem finishAll_waits (fs : List Flight) (hbooks : Books t before c)
    (hfs : fs.Perm (c.publisher.flights.filter (·.due ≤ c.publisher.now))) :
    Waits c ((c.publisher.withFlights
      (c.publisher.flights.filter fun f => ¬ f.due ≤ c.publisher.now)).finishAll fs) := by
  induction fs generalizing c with
  | nil =>
    have hlate : c.publisher.flights.filter (fun f => ¬ f.due ≤ c.publisher.now) =
        c.publisher.flights := by
      refine List.filter_eq_self.mpr ?_
      intro f hf
      have hnot := List.filter_eq_nil_iff.mp hfs.nil_eq.symm f hf
      simpa using hnot
    rw [hlate]
    exact .refl c
  | cons f fs ih =>
    obtain ⟨publishes, p⟩ := c
    dsimp only at hfs ⊢
    obtain ⟨hf, hdue⟩ := List.mem_filter.mp (hfs.subset List.mem_cons_self)
    simp only [decide_eq_true_eq] at hdue
    have hnow : f.due = p.now := Nat.le_antisymm hdue (hbooks.onTime f hf)
    -- the write is some publish without a result, which ends first
    have hflights : p.flights = publishes.filterMap Publish.flight? := hbooks.flights
    obtain ⟨a, ha, hflight⟩ := List.mem_filterMap.mp (hflights ▸ hf)
    obtain rfl := Publish.eq_of_flight? hflight
    obtain ⟨earlier, later, rfl⟩ := List.append_of_mem ha
    have hstep := Step.ends earlier later f p hnow
    have hrest : ∀ {holds : Flight → Bool}, holds f = false →
        p.flights.filter holds = ((earlier ++ later).filterMap Publish.flight?).filter holds := by
      intro holds hnot
      simp [hflights, Publish.flight?, hnot]
    have hfs' : fs.Perm
        (((earlier ++ later).filterMap Publish.flight?).filter (·.due ≤ p.now)) := by
      refine (List.perm_cons f).mp (hfs.trans ?_)
      rw [hflights]
      simp only [List.filterMap_append, List.filterMap_cons, Publish.flight?, Option.isNone_none,
        if_true, List.filter_append, List.filter_cons, hdue, decide_true]
      exact List.perm_middle
    have hwaits := ih (hstep.books hbooks) (by simpa [withFlights] using hfs')
    dsimp only at hwaits
    rw [finish_flights, finish_now, withFlights_finish] at hwaits
    obtain ⟨ls, publishes', hsteps', hinputs⟩ := hwaits
    refine ⟨.ends earlier.length :: ls, publishes', .head hstep ?_, hinputs⟩
    rw [hrest (by simpa using hdue), finishAll_cons]
    exact hsteps'

theorem land_waits (hbooks : Books t before c) : Waits c c.publisher.land :=
  finishAll_waits c.publisher.dueFlights hbooks (dueFlights_perm c.publisher)

/-! ### Time passes -/

theorem nextDue?_eq_some_iff {d : Nat} :
    p.nextDue? = some d ↔ (∃ f ∈ p.flights, f.due = d) ∧ ∀ f ∈ p.flights, d ≤ f.due := by
  unfold nextDue?
  rw [List.min?_eq_some_iff]
  simp

theorem nextDue?_eq_none_iff : p.nextDue? = none ↔ p.flights = [] := by
  simp [nextDue?]

/-- No write ends before the next one does. -/
theorem le_due_of_nextDue? {u : Nat} (h : ∀ d, p.nextDue? = some d → u ≤ d) :
    ∀ f ∈ p.flights, u ≤ f.due := by
  intro f hf
  cases hnext : p.nextDue? with
  | none =>
    rw [nextDue?_eq_none_iff.mp hnext] at hf
    cases hf
  | some d =>
    obtain ⟨-, hfirst⟩ := nextDue?_eq_some_iff.mp hnext
    exact Nat.le_trans (h d hnext) (hfirst f hf)

/-- Less is in flight when the next write has ended. -/
theorem flights_land_lt {d : Nat} (h : p.nextDue? = some d) :
    (p.atTime d).land.flights.length < p.flights.length := by
  obtain ⟨⟨f, hf, hdue⟩, -⟩ := nextDue?_eq_some_iff.mp h
  have hover : decide (¬ f.due ≤ max p.now d) = false :=
    decide_eq_false (not_not.mpr (hdue ▸ Nat.le_max_right _ _))
  rw [land_flights]
  exact List.length_filter_lt_length_iff_exists.mpr ⟨f, hf, ne_true_of_eq_false hover⟩

theorem atTime_land (p : Publisher) (u : Nat) :
    p.land.atTime u = { p.land with now := max p.now u } := by
  rw [atTime, land_now]

/-- If no write ends on the way, it is the same to land before the clock moves or after. -/
theorem land_atTime {u : Nat} (h : ∀ f ∈ p.flights, f.due ≤ p.now ∨ u < f.due) :
    (p.atTime u).land = p.land.atTime u := by
  have hsame : ∀ f ∈ p.flights, decide (f.due ≤ max p.now u) = decide (f.due ≤ p.now) := by
    intro f hf
    rcases h f hf with hdue | hlate
    · simp only [hdue, decide_true, decide_eq_true_eq]
      omega
    · rw [decide_eq_decide]
      omega
  have hdue : (p.atTime u).dueFlights = p.dueFlights :=
    congrArg (List.mergeSort · _) (List.filter_congr hsame)
  have hlate : p.flights.filter (fun f => ¬ f.due ≤ max p.now u) =
      p.flights.filter (fun f => ¬ f.due ≤ p.now) := by
    refine List.filter_congr ?_
    intro f hf
    simp only [decide_not, hsame f hf]
  rw [land_eq, land_eq, hdue, ← finishAll_comm fun p e => finish_atTime p e u]
  exact congrArg (finishAll · p.dueFlights)
    (congrArg (fun fs => (p.withFlights fs).atTime u) hlate)

/-- The writes that end on the way to an instant. -/
def ending (p : Publisher) (u : Nat) : List Flight :=
  p.flights.filter fun f => p.now < f.due ∧ f.due ≤ u

theorem ending_land_lt {u d : Nat} (hnext : p.land.nextDue? = some d) (hd : d ≤ u) :
    ((p.land.atTime d).ending u).length < (p.ending u).length := by
  obtain ⟨⟨f, hf, hdue⟩, -⟩ := nextDue?_eq_some_iff.mp hnext
  have hlate := land_late p f hf
  rw [land_flights] at hf
  rw [land_now] at hlate
  have hsub : ((p.land.atTime d).ending u).Sublist
      ((p.ending u).filter fun f => d < f.due) := by
    have hfilter : (p.land.atTime d).ending u =
        (p.flights.filter fun f => ¬ f.due ≤ p.now).filter
          fun f => max p.now d < f.due ∧ f.due ≤ u := by
      rw [ending, atTime]
      dsimp only
      rw [land_flights, land_now]
    rw [hfilter, ending, List.filter_filter, List.filter_filter]
    refine List.monotone_filter_right _ ?_
    intro f hf
    simp only [Bool.and_eq_true, decide_eq_true_eq, Nat.not_le] at hf ⊢
    omega
  refine Nat.lt_of_le_of_lt hsub.length_le (List.length_filter_lt_length_iff_exists.mpr ⟨f, ?_, ?_⟩)
  · rw [ending, List.mem_filter]
    exact ⟨(List.mem_filter.mp hf).1, by simp; omega⟩
  · simp only [decide_eq_true_eq]
    omega

/-- Letting time pass ends every write on the way at its own instant, if as many are allowed for. -/
theorem runUntil_waits (fuel u : Nat) (hbooks : Books t before c)
    (hfuel : (c.publisher.ending u).length ≤ fuel) : Waits c (runUntil fuel c.publisher u) := by
  have hlands := land_waits hbooks
  induction fuel generalizing c with
  | zero =>
    have hnone : ∀ f ∈ c.publisher.flights, f.due ≤ c.publisher.now ∨ u < f.due := by
      intro f hf
      have hempty := List.filter_eq_nil_iff.mp (List.eq_nil_of_length_eq_zero (Nat.le_zero.mp hfuel)) f hf
      simp only [decide_eq_true_eq, not_and, Nat.not_le] at hempty
      omega
    have hpass : ∀ f ∈ c.publisher.land.flights, u ≤ f.due := by
      intro f hf
      have hlate := land_late c.publisher f hf
      rw [land_flights] at hf
      rw [land_now] at hlate
      rcases hnone f (List.mem_filter.mp hf).1 with hdue | hafter
      · omega
      · omega
    have hlast : runUntil 0 c.publisher u = c.publisher.land.atTime u := land_atTime hnone
    rw [hlast]
    exact hlands.andThen hbooks fun publishes _ => atTime_waits (c := ⟨publishes, _⟩) hpass
  | succ fuel ih =>
    unfold runUntil
    cases hnext : c.publisher.land.nextDue? with
    | none =>
      dsimp only
      rw [← atTime_land]
      refine hlands.andThen hbooks fun publishes _ => atTime_waits (c := ⟨publishes, _⟩) ?_
      exact le_due_of_nextDue? (by simp [hnext])
    | some d =>
      dsimp only
      split
      · rename_i hd
        rw [← atTime_land]
        have hstop : Waits c (c.publisher.land.atTime d) := by
          refine hlands.andThen hbooks fun publishes _ => atTime_waits (c := ⟨publishes, _⟩) ?_
          exact le_due_of_nextDue? (by simp [hnext])
        refine hstop.andThen hbooks fun publishes hbooks' => ih (c := ⟨publishes, _⟩) hbooks' ?_ ?_
        · have hlt := ending_land_lt hnext hd
          exact Nat.le_of_lt_succ (Nat.lt_of_lt_of_le hlt hfuel)
        · exact land_waits hbooks'
      · rename_i hd
        rw [← atTime_land]
        refine hlands.andThen hbooks fun publishes _ => atTime_waits (c := ⟨publishes, _⟩) ?_
        exact le_due_of_nextDue? (by simp [hnext, Nat.le_of_not_le hd])

theorem advance_waits (hbooks : Books t before c) (ms : Nat) :
    Waits c (c.publisher.advance ms) :=
  runUntil_waits _ _ hbooks (List.length_filter_le _ _)

theorem waitUntil_waits (holds : Publisher → Bool) (fuel deadline : Nat) (hbooks : Books t before c)
    (hfuel : c.publisher.flights.length < fuel) :
    Waits c (waitUntil holds fuel c.publisher deadline).2 := by
  induction fuel generalizing c with
  | zero => omega
  | succ fuel ih =>
    unfold waitUntil
    split
    · exact .refl c
    · cases hnext : c.publisher.nextDue? with
      | none => exact atTime_waits (le_due_of_nextDue? (by simp [hnext]))
      | some d =>
        dsimp only
        split
        · have hstop : Waits c (c.publisher.atTime d) :=
            atTime_waits (le_due_of_nextDue? (by simp [hnext]))
          have hlands : Waits c (c.publisher.atTime d).land :=
            hstop.andThen hbooks fun publishes hbooks' => land_waits (c := ⟨publishes, _⟩) hbooks'
          refine hlands.andThen hbooks fun publishes hbooks' => ih (c := ⟨publishes, _⟩) hbooks' ?_
          exact Nat.lt_of_lt_of_le (flights_land_lt hnext) (Nat.le_of_lt_succ hfuel)
        · rename_i hd
          exact atTime_waits (le_due_of_nextDue? (by simp [hnext, Nat.le_of_not_lt hd]))

/-! ### Publishing -/

theorem runUntil_now (fuel u : Nat) (p : Publisher) : (runUntil fuel p u).now = max p.now u := by
  induction fuel generalizing p with
  | zero => rw [runUntil, land_now]
  | succ fuel ih =>
    unfold runUntil
    split
    · split
      · rw [ih]
        dsimp only
        omega
      · rfl
    · rfl

theorem runUntil_late (fuel u : Nat) (p : Publisher) (hfuel : (p.ending u).length ≤ fuel) :
    ∀ f ∈ (runUntil fuel p u).flights, u < f.due := by
  induction fuel generalizing p with
  | zero =>
    intro f hf
    rw [runUntil, land_flights] at hf
    have hdue := (List.mem_filter.mp hf).2
    simp only [decide_eq_true_eq] at hdue
    omega
  | succ fuel ih =>
    unfold runUntil
    cases hnext : p.land.nextDue? with
    | none => exact le_due_of_nextDue? (p := p.land) (u := u + 1) (by simp [hnext])
    | some d =>
      dsimp only
      split
      · rename_i hd
        rw [← atTime_land]
        exact ih _ (Nat.le_of_lt_succ (Nat.lt_of_lt_of_le (ending_land_lt hnext hd) hfuel))
      · rename_i hd
        refine le_due_of_nextDue? (p := p.land) (u := u + 1) ?_
        intro d' hd'
        rw [hnext] at hd'
        cases hd'
        exact Nat.lt_of_not_le hd

section
variable {x : Flight}

theorem land_withFlight (h : p.now < x.due) : (p.withFlight x).land = p.land.withFlight x := by
  have hnot : ¬ x.due ≤ p.now := Nat.not_le.mpr h
  have hfilter : (p.withFlight x).flights.filter (·.due ≤ p.now) =
      p.flights.filter (·.due ≤ p.now) := by
    simp [withFlight, hnot]
  have hdue : (p.withFlight x).dueFlights = p.dueFlights :=
    congrArg (List.mergeSort · _) hfilter
  have hrest : (p.withFlight x).flights.filter (fun f => ¬ f.due ≤ p.now) =
      p.flights.filter (fun f => ¬ f.due ≤ p.now) ++ [x] := by
    simp [withFlight, h]
  rw [land_eq, land_eq, hdue, ← finishAll_comm fun p e => finish_withFlight p e x]
  exact congrArg (fun fs => (p.withFlights fs).finishAll p.dueFlights) hrest

theorem nextDue?_withFlight (p : Publisher) (x : Flight) :
    (p.withFlight x).nextDue? = some (p.nextDue?.elim x.due (min x.due)) := by
  have hnext := nextDue?_eq_some_iff (p := p.withFlight x)
    (d := p.nextDue?.elim x.due (min x.due))
  refine hnext.mpr ?_
  cases h : p.nextDue? with
  | none =>
    have hnone := nextDue?_eq_none_iff.mp h
    simp [withFlight, hnone]
  | some d =>
    obtain ⟨⟨f, hf, rfl⟩, hfirst⟩ := nextDue?_eq_some_iff.mp h
    simp only [withFlight, List.mem_append, List.mem_singleton, Option.elim_some]
    refine ⟨?_, ?_⟩
    · rcases Nat.le_total x.due f.due with hle | hle
      · exact ⟨x, Or.inr rfl, (Nat.min_eq_left hle).symm⟩
      · exact ⟨f, Or.inl hf, (Nat.min_eq_right hle).symm⟩
    · rintro f' (hf' | rfl)
      · exact Nat.le_trans (Nat.min_le_right _ _) (hfirst f' hf')
      · exact Nat.min_le_left _ _

/-- A write that ends later does not change what happens until then. -/
theorem runUntil_withFlight (fuel : Nat) {u : Nat} (p : Publisher) (hnow : p.now < x.due)
    (hu : u < x.due) : runUntil fuel (p.withFlight x) u = (runUntil fuel p u).withFlight x := by
  induction fuel generalizing p with
  | zero =>
    exact land_withFlight (p := p.atTime u) (Nat.max_lt.mpr ⟨hnow, hu⟩)
  | succ fuel ih =>
    unfold runUntil
    rw [land_withFlight hnow, nextDue?_withFlight]
    cases p.land.nextDue? with
    | none =>
      dsimp only [Option.elim_none]
      rw [if_neg (by omega)]
      rfl
    | some d =>
      dsimp only [Option.elim_some]
      by_cases hd : d ≤ u
      · rw [if_pos (by omega), if_pos hd, Nat.min_eq_right (by omega)]
        exact ih { p.land with now := max p.now d } (Nat.max_lt.mpr ⟨hnow, by omega⟩)
      · rw [if_neg (by omega), if_neg hd]
        rfl

end

/-- The publisher at the moment in which a publish that began now, and is waited for, ends. -/
def whenOver (p : Publisher) : Publisher :=
  if p.isInstant then p
  else { runUntil p.flights.length p (p.now + p.writer.delay.getD 0 - 1) with
    now := p.now + p.writer.delay.getD 0 }

theorem publish_eq (ht : p.whenOver.template = some t) (e : Event) :
    p.publish e = (p.whenOver.writer.result, (p.whenOver.finish e).land) := by
  have hpublish : p.publish e =
      (((p.whenOver.finish e).attempts.getLast?.map (·.result)).getD (.ok ()),
        (p.whenOver.finish e).land) := rfl
  rw [hpublish, finish_attempts _ t ht]
  simp

theorem isInstant_iff (ht : p.template = some t) :
    p.isInstant = true ↔ p.writer.delay.getD 0 = 0 := by
  simp [isInstant, ht]

theorem whenOver_now (ht : p.template = some t) (e : Event) :
    p.whenOver.now = (p.entering e).due := by
  unfold whenOver
  split
  · rename_i hinstant
    rw [entering, (isInstant_iff ht).mp hinstant]
    rfl
  · rfl

/-- A publish that is waited for takes as long as its delay. -/
theorem publish_now (ht : p.template = some t) (e : Event) :
    (p.publish e).2.now = p.now + p.writer.delay.getD 0 := by
  change (p.whenOver.finish e).land.now = _
  rw [land_now, finish_now]
  exact whenOver_now ht e

/-- A publish whose delay is not over has not ended. -/
theorem steps_keep_unended (hsteps : Steps c ls c') (hbooks : Books t before c) {i : Nat} {x : Flight}
    (hx : c.publishes[i]? = some ⟨x, none⟩) (hlate : c'.publisher.now < x.due) :
    c'.publishes[i]? = some ⟨x, none⟩ := by
  obtain ⟨⟨f, result⟩, ha, hflight, -⟩ := steps_keep hsteps hbooks hx
  obtain rfl : f = x := hflight
  cases result with
  | none => exact ha
  | some result =>
    have hpast := (books_of_steps hsteps hbooks).past _ (List.mem_of_getElem? ha) rfl
    dsimp only at hpast
    omega

/-- Time passes until the delay of a write is over, which was the last to begin; the other writes go on. -/
theorem runUntil_steps_withFlight {x : Flight}
    (hbooks : Books t before ⟨c.publishes ++ [⟨x, none⟩], p.withFlight x⟩) (hlate : p.now < x.due) :
    ∃ ls publishes,
      Steps ⟨c.publishes ++ [⟨x, none⟩], p.withFlight x⟩ ls
        ⟨publishes ++ [⟨x, none⟩], ({ runUntil p.flights.length p (x.due - 1) with
          now := x.due } : Publisher).withFlight x⟩ ∧
      inputs ls = [] ∧ publishes.map (·.toFlight) = c.publishes.map (·.toFlight) := by
  have hcount : ((p.withFlight x).ending (x.due - 1)).length ≤ p.flights.length := by
    have hnot : ¬ (p.now < x.due ∧ x.due ≤ x.due - 1) := by omega
    have hsame : (p.withFlight x).ending (x.due - 1) = p.ending (x.due - 1) := by
      unfold ending withFlight
      rw [List.filter_append, List.filter_cons_of_neg (by simpa using hnot), List.filter_nil,
        List.append_nil]
    rw [hsame]
    exact List.length_filter_le _ _
  obtain ⟨ls, publishes, hsteps, hinputs⟩ := runUntil_waits p.flights.length (x.due - 1) hbooks hcount
  have hpublishes := flights_of_inputs_nil hsteps hinputs
  rw [runUntil_withFlight _ _ hlate (by omega)] at hsteps
  have hnow : (runUntil p.flights.length p (x.due - 1)).now = x.due - 1 := by
    rw [runUntil_now]
    omega
  -- the write itself has not ended, since its delay is not over
  have hlength : publishes.length = c.publishes.length + 1 := by
    simpa using congrArg List.length hpublishes
  have hlast : publishes[c.publishes.length]? = some ⟨x, none⟩ := by
    refine steps_keep_unended hsteps hbooks (by simp) ?_
    change (runUntil p.flights.length p (x.due - 1)).now < x.due
    omega
  obtain ⟨earlier, rfl⟩ : ∃ earlier, publishes = earlier ++ [⟨x, none⟩] := by
    refine ⟨publishes.dropLast, (List.dropLast_append_getLast? _ ?_).symm⟩
    rw [List.getLast?_eq_getElem?, hlength]
    exact hlast
  have hpass : ∀ f ∈ ((runUntil p.flights.length p (x.due - 1)).withFlight x).flights,
      x.due ≤ f.due := by
    intro f hf
    rcases List.mem_append.mp hf with hother | hself
    · have hother' := runUntil_late _ _ _ (List.length_filter_le _ _) f hother
      omega
    · exact Nat.le_of_eq (congrArg Flight.due (List.mem_singleton.mp hself)).symm
  have htime : ({ runUntil p.flights.length p (x.due - 1) with now := x.due } : Publisher).withFlight x =
      ((runUntil p.flights.length p (x.due - 1)).withFlight x).atTime x.due := by
    have hmax : max (x.due - 1) x.due = x.due := Nat.max_eq_right (Nat.sub_le _ _)
    simp only [withFlight, atTime, hnow, hmax]
  refine ⟨ls ++ [.passes x.due], earlier, ?_, ?_, by simpa using hpublishes⟩
  · rw [htime]
    exact hsteps.tail (.passes ⟨earlier ++ [⟨x, none⟩], _⟩ x.due hpass)
  · rw [inputs_append, hinputs]
    rfl

/-- A publish that is waited for is in flight until its delay is over, and the other writes go on. -/
theorem whenOver_steps (hbooks : Books t before c) (e : Event) :
    ∃ ls publishes,
      Steps c ls ⟨publishes ++ [⟨c.publisher.entering e, none⟩],
        c.publisher.whenOver.withFlight (c.publisher.entering e)⟩ ∧
      inputs ls = [.begins e] ∧
      publishes.map (·.toFlight) = c.publishes.map (·.toFlight) := by
  have hbegins := Step.begins c e
  unfold whenOver
  split
  · rename_i hinstant
    rw [isInstant_iff hbooks.template] at hinstant
    exact ⟨_, c.publishes, hbegins.steps, rfl, rfl⟩
  · rename_i hslow
    rw [isInstant_iff hbooks.template] at hslow
    have hlate : c.publisher.now < (c.publisher.entering e).due :=
      Nat.lt_add_of_pos_right (Nat.pos_of_ne_zero hslow)
    obtain ⟨ls, publishes, hsteps, hinputs, hpublishes⟩ :=
      runUntil_steps_withFlight (hbegins.books hbooks) hlate
    exact ⟨_, publishes, .head hbegins hsteps, congrArg (Label.begins e :: ·) hinputs, hpublishes⟩

/-- While a publish is waited for nothing else is put in force, so it is answered as the writer stood. -/
theorem publish_answer (hbooks : Books t before c) (e : Event) :
    (c.publisher.publish e).1 = c.publisher.writer.result := by
  obtain ⟨ls, publishes, hsteps, hinputs, -⟩ := whenOver_steps hbooks e
  obtain ⟨hsame, -⟩ := steps_inForce hsteps
  rw [hinputs] at hsame
  have hfailure : c.publisher.whenOver.writer.failure = c.publisher.writer.failure := hsame
  rw [publish_eq (t := t) (books_of_steps hsteps hbooks).template, Writer.result, Writer.result, hfailure]

theorem start_leads (hbooks : Books t before c) (e : Event) :
    Leads c [.begins e] [c.publisher.entering e] (c.publisher.start e) := by
  have hbegins := Step.begins c e
  unfold start
  split
  · rename_i hinstant
    rw [isInstant_iff hbooks.template] at hinstant
    have hends := step_ends_last (by simp [entering, hinstant]) (hbegins.books hbooks)
    exact ⟨_, _, .head hbegins hends.steps, rfl, by simp⟩
  · exact ⟨_, _, hbegins.steps, rfl, by simp⟩

/-- A publish that is waited for is answered with its result. -/
theorem publish_steps (hbooks : Books t before c) (e : Event) :
    ∃ ls publishes, Steps c ls ⟨publishes, (c.publisher.publish e).2⟩ ∧ inputs ls = [.begins e] ∧
      publishes.map (·.toFlight) = c.publishes.map (·.toFlight) ++ [c.publisher.entering e] ∧
      publishes[c.publishes.length]? =
        some ⟨c.publisher.entering e, some (c.publisher.publish e).1⟩ := by
  obtain ⟨ls, publishes, hsteps, hinputs, hpublishes⟩ := whenOver_steps hbooks e
  have hbooks' := books_of_steps hsteps hbooks
  have hends := step_ends_last (whenOver_now hbooks.template e).symm hbooks'
  obtain ⟨ls', publishes', hlands, hinputs'⟩ := land_waits (hends.books hbooks')
  have hpublishes' := flights_of_inputs_nil hlands hinputs'
  obtain ⟨a, ha, -, hsame⟩ := steps_keep hlands (hends.books hbooks') (i := publishes.length)
    (a := ⟨c.publisher.entering e, some c.publisher.whenOver.writer.result⟩) (by simp)
  have hlength : publishes.length = c.publishes.length := by
    simpa using congrArg List.length hpublishes
  rw [publish_eq (t := t) hbooks'.template]
  refine ⟨_, publishes', (hsteps.tail hends).trans hlands, ?_, ?_, ?_⟩
  · rw [inputs_append, inputs_append, hinputs, hinputs']
    rfl
  · simpa [hpublishes] using hpublishes'
  · rw [← hlength, ha, hsame rfl]

end CompanyRegistry.Publisher
