import CompanyRegistry.Event.Balancer
import Mathlib.Algebra.BigOperators.Group.Finset.Piecewise
import Mathlib.Algebra.GroupWithZero.Nat
import Mathlib.Data.FinEnum

/-!
# The loads of partitions

A `Call` asks a balancer for a partition, out of a list that may be another one each time, name a partition
twice or be empty. `answer_eq_earliestLeast?` says which one it gets, without the scan that finds it, and
`load_after` that this one alone is charged. `Balancer.placed` keeps the book of a run of calls: the messages
that got a partition, each with the one that it got. While the octets of all messages can be counted, every load
is what the book says was sent there (`load_run_toNat`), and nothing else is counted anywhere
(`loads_are_what_was_sent`).
-/

namespace CompanyRegistry.Balancer

variable {b : Balancer} {p : Int32} {ps : List Int32}

/-! ### The choice -/

/-- The earliest of the listed partitions among those of least load. -/
def earliestLeast? (b : Balancer) (ps : List Int32) : Option Int32 :=
  ps.find? fun p => ps.all fun q => b.load p ≤ b.load q

/-- A partition has a lower load than those listed before it, and no higher one than those after it. -/
def Earliest (b : Balancer) (ps : List Int32) (p : Int32) : Prop :=
  ∃ before after, ps = before ++ p :: after ∧
    (∀ q ∈ before, b.load p < b.load q) ∧ ∀ q ∈ after, b.load p ≤ b.load q

namespace Earliest

theorem load_le (h : b.Earliest ps p) {q : Int32} (hq : q ∈ ps) : b.load p ≤ b.load q := by
  obtain ⟨before, after, rfl, hbefore, hafter⟩ := h
  rcases List.mem_append.mp hq with hq | hq
  · exact UInt64.le_of_lt (hbefore q hq)
  · rcases List.mem_cons.mp hq with rfl | hq
    · exact UInt64.le_refl _
    · exact hafter q hq

theorem earliestLeast?_eq (h : b.Earliest ps p) : b.earliestLeast? ps = some p := by
  have hleast : ∀ q ∈ ps, b.load p ≤ b.load q := fun q => h.load_le
  obtain ⟨before, after, hps, hbefore, -⟩ := h
  refine List.find?_eq_some_iff_append.mpr ⟨by simpa using hleast, before, after, hps, ?_⟩
  intro q hq
  rw [Bool.not_eq_true', List.all_eq_false]
  exact ⟨p, by simp [hps], by simpa using hbefore q hq⟩

theorem cons_of_lt (h : b.Earliest ps p) {q : Int32} (hq : b.load p < b.load q) :
    b.Earliest (q :: ps) p := by
  obtain ⟨before, after, rfl, hbefore, hafter⟩ := h
  exact ⟨q :: before, after, rfl, List.forall_mem_cons.mpr ⟨hq, hbefore⟩, hafter⟩

theorem insert_of_le {best q : Int32} (h : b.Earliest (best :: ps) p)
    (hq : b.load best ≤ b.load q) : b.Earliest (best :: q :: ps) p := by
  obtain ⟨before, after, hps, hbefore, hafter⟩ := h
  cases before with
  | nil =>
    obtain ⟨rfl, rfl⟩ := List.cons.inj hps
    exact ⟨[], q :: ps, rfl, hbefore, List.forall_mem_cons.mpr ⟨hq, hafter⟩⟩
  | cons first before =>
    -- a later partition is better than the first one, and so than the one that is inserted
    obtain ⟨rfl, rfl⟩ := List.cons.inj hps
    rw [List.forall_mem_cons] at hbefore
    have hlt : b.load p < b.load q := UInt64.lt_of_lt_of_le hbefore.1 hq
    exact ⟨best :: q :: before, after, rfl,
      List.forall_mem_cons.mpr ⟨hbefore.1, List.forall_mem_cons.mpr ⟨hlt, hbefore.2⟩⟩, hafter⟩

end Earliest

/-- The scan is right about the partitions that it has seen, the best one so far and those that follow. -/
theorem earliest_leastFrom (b : Balancer) (best : Int32) (ps : List Int32) :
    b.Earliest (best :: ps) (b.leastFrom best ps) := by
  induction ps generalizing best with
  | nil => exact ⟨[], [], rfl, by simp, by simp⟩
  | cons p ps ih =>
    rw [leastFrom]
    split_ifs with hless
    · have hle : b.load (b.leastFrom p ps) ≤ b.load p := (ih p).load_le (by simp)
      exact (ih p).cons_of_lt (UInt64.lt_of_le_of_lt hle hless)
    · exact (ih best).insert_of_le (UInt64.not_lt.mp hless)

theorem least?_eq_earliestLeast? (b : Balancer) (ps : List Int32) :
    b.least? ps = b.earliestLeast? ps := by
  cases ps with
  | nil => rfl
  | cons p ps => exact (earliest_leastFrom b p ps).earliestLeast?_eq.symm

theorem least?_eq_none_iff : b.least? ps = none ↔ ps = [] := by
  cases ps with
  | nil => simp [least?]
  | cons p ps => simp [least?]

theorem earliestLeast?_eq_some (h : b.earliestLeast? ps = some p) :
    p ∈ ps ∧ ∀ q ∈ ps, b.load p ≤ b.load q :=
  ⟨List.mem_of_find?_eq_some h, by simpa using List.find?_some h⟩

/-! ### One call -/

/-- A message that needs a partition, and the partitions that there are. -/
structure Call where
  message : Message
  partitions : List Int32

def answer (b : Balancer) (c : Call) : Option Int32 := (b.balance c.message c.partitions).1

def after (b : Balancer) (c : Call) : Balancer := (b.balance c.message c.partitions).2

theorem lookup_filter_ne {p q : Int32} (hne : q ≠ p) (sent : List (Int32 × UInt64)) :
    (sent.filter (·.1 ≠ p)).lookup q = sent.lookup q := by
  induction sent with
  | nil => rfl
  | cons entry sent ih =>
    by_cases hentry : entry.1 = p
    · have hother : (q == entry.1) = false := by simpa [hentry] using hne
      rw [List.filter_cons_of_neg (by simpa using hentry), ih, List.lookup_cons, hother]
    · rw [List.filter_cons_of_pos (by simpa using hentry), List.lookup_cons, List.lookup_cons, ih]

theorem load_add (b : Balancer) (p q : Int32) (size : UInt64) :
    (b.add p size).load q = if q = p then b.load p + size else b.load q := by
  by_cases hq : q = p
  · subst hq
    simp [add, load]
  · have hother : (q == p) = false := by simpa using hq
    simp only [add, load, List.lookup_cons, hother, lookup_filter_ne hq, if_neg hq]

theorem answer_eq_earliestLeast? (b : Balancer) (c : Call) :
    b.answer c = b.earliestLeast? c.partitions := by
  rw [← least?_eq_earliestLeast?, answer, balance]
  cases b.least? c.partitions with
  | none => rfl
  | some p => rfl

theorem answer_eq_none_iff {c : Call} : b.answer c = none ↔ c.partitions = [] := by
  rw [answer_eq_earliestLeast?, ← least?_eq_earliestLeast?, least?_eq_none_iff]

theorem after_eq (b : Balancer) (c : Call) :
    b.after c = match b.answer c with
      | none => b
      | some p => b.add p (UInt64.ofNat c.message.size) := by
  unfold after answer balance
  cases b.least? c.partitions with
  | none => rfl
  | some p => rfl

theorem load_after (b : Balancer) (c : Call) (q : Int32) :
    (b.after c).load q =
      if b.answer c = some q then b.load q + UInt64.ofNat c.message.size else b.load q := by
  rw [after_eq]
  cases b.answer c with
  | none => simp
  | some p =>
    rw [load_add]
    by_cases hq : q = p
    · simp [hq]
    · simp [hq, Ne.symm hq]

theorem load_after_toNat (b : Balancer) (c : Call) (q : Int32)
    (hfits : (b.load q).toNat + c.message.size < 2 ^ 64) :
    ((b.after c).load q).toNat =
      (b.load q).toNat + if b.answer c = some q then c.message.size else 0 := by
  rw [load_after]
  split_ifs with hq
  · rw [UInt64.toNat_add, UInt64.toNat_ofNat', Nat.mod_eq_of_lt (by omega : c.message.size < _),
      Nat.mod_eq_of_lt hfits]
  · rfl

/-! ### Calls one after another -/

def fresh : Balancer := {}

def run (b : Balancer) : List Call → Balancer
  | [] => b
  | c :: cs => (b.after c).run cs

theorem run_append (b : Balancer) (cs more : List Call) :
    b.run (cs ++ more) = (b.run cs).run more := by
  induction cs generalizing b with
  | nil => rfl
  | cons c cs ih => exact ih (b.after c)

/-- The messages of some calls that got a partition, in their order, each with the partition. -/
def placed (b : Balancer) : List Call → List (Int32 × Message)
  | [] => []
  | c :: cs => ((b.answer c).map fun p => (p, c.message)).toList ++ (b.after c).placed cs

def octets (ms : List Message) : Nat := (ms.map Message.size).sum

/-- The messages that were sent to a partition. -/
def sentTo (book : List (Int32 × Message)) (p : Int32) : List Message :=
  (book.filter (·.1 = p)).map (·.2)

@[simp] theorem load_fresh (p : Int32) : fresh.load p = 0 := rfl

@[simp] theorem octets_nil : octets [] = 0 := rfl

@[simp] theorem octets_cons (m : Message) (ms : List Message) :
    octets (m :: ms) = m.size + octets ms := List.sum_cons

@[simp] theorem octets_append (ms ms' : List Message) :
    octets (ms ++ ms') = octets ms + octets ms' := by
  simp [octets]

theorem octets_le_whole {before calls : List Call} (h : before <+: calls) :
    octets (before.map (·.message)) ≤ octets (calls.map (·.message)) := by
  obtain ⟨rest, rfl⟩ := h
  rw [List.map_append, octets_append]
  exact Nat.le_add_right _ _

theorem octets_sentTo_cons (entry : Int32 × Message) (book : List (Int32 × Message)) (q : Int32) :
    octets (sentTo (entry :: book) q) =
      (if entry.1 = q then entry.2.size else 0) + octets (sentTo book q) := by
  by_cases hq : entry.1 = q
  · simp [sentTo, hq]
  · simp [sentTo, hq]

theorem octets_sentTo_placed_cons (b : Balancer) (c : Call) (cs : List Call) (q : Int32) :
    octets (sentTo (b.placed (c :: cs)) q) =
      (if b.answer c = some q then c.message.size else 0) +
        octets (sentTo ((b.after c).placed cs) q) := by
  rw [placed]
  cases b.answer c with
  | none => simp
  | some p => simp [octets_sentTo_cons]

/-- No octet is lost while all that are sent can be counted on top of the load there is. -/
theorem load_run_toNat (b : Balancer) (cs : List Call) (q : Int32)
    (hfits : (b.load q).toNat + octets (cs.map (·.message)) < 2 ^ 64) :
    ((b.run cs).load q).toNat = (b.load q).toNat + octets (sentTo (b.placed cs) q) := by
  induction cs generalizing b with
  | nil => simp [run, placed, sentTo]
  | cons c cs ih =>
    rw [List.map_cons, octets_cons] at hfits
    have hafter := load_after_toNat b c q (by omega)
    have hrest := ih (b.after c) (by rw [hafter]; split_ifs <;> omega)
    rw [run, hrest, hafter, octets_sentTo_placed_cons, Nat.add_assoc]

theorem sum_octets_sentTo {partitions : Finset Int32} {book : List (Int32 × Message)}
    (hbook : ∀ entry ∈ book, entry.1 ∈ partitions) :
    ∑ p ∈ partitions, octets (sentTo book p) = octets (book.map (·.2)) := by
  induction book with
  | nil => simp [sentTo]
  | cons entry book ih =>
    rw [List.forall_mem_cons] at hbook
    simp [octets_sentTo_cons, Finset.sum_add_distrib, hbook.1, ih hbook.2]

theorem octets_sentTo_placed_le (b : Balancer) (cs : List Call) (q : Int32) :
    octets (sentTo (b.placed cs) q) ≤ octets (cs.map (·.message)) := by
  induction cs generalizing b with
  | nil => exact Nat.le_refl _
  | cons c cs ih =>
    rw [octets_sentTo_placed_cons, List.map_cons, octets_cons]
    have hrest := ih (b.after c)
    split_ifs <;> omega

/-! ### From the first call on -/

theorem load_run_fresh (calls : List Call) (htotal : octets (calls.map (·.message)) < 2 ^ 64)
    (q : Int32) : ((fresh.run calls).load q).toNat = octets (sentTo (fresh.placed calls) q) := by
  simpa using load_run_toNat fresh calls q (by simpa using htotal)

theorem load_run_fresh_le (calls : List Call) (htotal : octets (calls.map (·.message)) < 2 ^ 64)
    (q : Int32) : ((fresh.run calls).load q).toNat ≤ octets (calls.map (·.message)) := by
  rw [load_run_fresh calls htotal]
  exact octets_sentTo_placed_le fresh calls q

theorem load_run_snoc {before : List Call} {c : Call}
    (htotal : octets ((before ++ [c]).map (·.message)) < 2 ^ 64) (q : Int32) :
    ((fresh.run (before ++ [c])).load q).toNat = ((fresh.run before).load q).toNat +
      if (fresh.run before).answer c = some q then c.message.size else 0 := by
  have hsplit : octets (before.map (·.message)) + c.message.size < 2 ^ 64 := by
    simpa using htotal
  have hload := load_run_fresh_le before (by omega) q
  rw [run_append]
  exact load_after_toNat (fresh.run before) c q (by omega)

/-- **Loads are what was sent.** In a run of calls whose messages can be counted together, whatever lists of
partitions they bring, each call is answered with the earliest of its partitions that has the least load, or not
at all if it lists none; the octets of its message are added to that load and to no other. So at every moment a
load is the octets of the messages that were sent to the partition, and the loads of all partitions
together are the octets of all messages that got one. -/
theorem loads_are_what_was_sent {calls : List Call}
    (htotal : octets (calls.map (·.message)) < 2 ^ 64) :
    (∀ before c, before ++ [c] <+: calls →
      ((fresh.run before).answer c = none ↔ c.partitions = []) ∧
      (fresh.run before).answer c = (fresh.run before).earliestLeast? c.partitions ∧
      ∀ q, ((fresh.run (before ++ [c])).load q).toNat = ((fresh.run before).load q).toNat +
        if (fresh.run before).answer c = some q then c.message.size else 0) ∧
    ∀ before, before <+: calls →
      (∀ q, ((fresh.run before).load q).toNat = octets (sentTo (fresh.placed before) q)) ∧
      ∑ q : Int32, ((fresh.run before).load q).toNat = octets ((fresh.placed before).map (·.2)) := by
  have hfits : ∀ before, before <+: calls → octets (before.map (·.message)) < 2 ^ 64 :=
    fun before hbefore => Nat.lt_of_le_of_lt (octets_le_whole hbefore) htotal
  constructor
  · intro before c hbefore
    exact ⟨answer_eq_none_iff, answer_eq_earliestLeast? _ c, load_run_snoc (hfits _ hbefore)⟩
  · intro before hbefore
    have hsent := load_run_fresh before (hfits before hbefore)
    refine ⟨hsent, ?_⟩
    simp only [hsent]
    exact sum_octets_sentTo fun entry _ => Finset.mem_univ entry.1

/-! A sample: partition 3 is the first of three without a load, a call lists nothing, and an empty message goes
where nothing was sent, so that the next one finds a tie there. -/

/-- A message of so many octets, one of them in its key. -/
def sampleMessage (size : Nat) : Message := ⟨some [0], List.replicate (size - 1) 0⟩

def sampleCalls : List Call :=
  [⟨sampleMessage 3, [3, 1, 3]⟩, ⟨sampleMessage 7, []⟩, ⟨{}, [3, 1]⟩, ⟨sampleMessage 5, [1, 2]⟩,
    ⟨sampleMessage 1, [2, 1, 2]⟩]

/-- The fourth call finds nothing sent to either of its partitions and gets the first; the message without
partitions is not counted. -/
theorem sampleCalls_loads :
    octets (sampleCalls.map (·.message)) < 2 ^ 64 ∧
    (fresh.run (sampleCalls.take 3)).answer ⟨sampleMessage 5, [1, 2]⟩ = some 1 ∧
    (fresh.placed sampleCalls).map (·.1) = [3, 1, 1, 2] ∧
    ((fresh.run sampleCalls).load 1).toNat = 5 ∧
    ∑ q : Int32, ((fresh.run sampleCalls).load q).toNat = 9 := by
  have htotal : octets (sampleCalls.map (·.message)) < 2 ^ 64 := by decide
  obtain ⟨hcalls, hmoments⟩ := loads_are_what_was_sent htotal
  obtain ⟨hloads, hsum⟩ := hmoments sampleCalls (List.prefix_refl _)
  obtain ⟨-, hfourth, -⟩ := hcalls (sampleCalls.take 3) ⟨sampleMessage 5, [1, 2]⟩ ⟨_, rfl⟩
  refine ⟨htotal, ?_, by decide, ?_, ?_⟩
  · rw [hfourth]
    decide
  · rw [hloads]
    decide
  · rw [hsum]
    decide

/-! ### One list of partitions -/

def callsFor (ps : List Int32) (ms : List Message) : List Call := ms.map fun m => ⟨m, ps⟩

def largest (ms : List Message) : Nat := (ms.map Message.size).max?.getD 0

/-- The loads of some partitions are so close to each other. -/
def Within (b : Balancer) (ps : List Int32) (distance : Nat) : Prop :=
  ∀ p ∈ ps, ∀ q ∈ ps, (b.load p).toNat ≤ (b.load q).toNat + distance

variable {m : Message} {ms : List Message} {distance : Nat}

theorem size_le_largest (hm : m ∈ ms) : m.size ≤ largest ms :=
  List.le_max?_getD_of_mem (List.mem_map_of_mem hm)

theorem messages_callsFor (ps : List Int32) (ms : List Message) :
    (callsFor ps ms).map (·.message) = ms := by
  rw [callsFor, List.map_map]
  exact List.map_id ms

theorem callsFor_snoc (ps : List Int32) (ms : List Message) (m : Message) :
    callsFor ps (ms ++ [m]) = callsFor ps ms ++ [⟨m, ps⟩] :=
  List.map_append

theorem load_le_of_answer {c : Call} {q : Int32} (h : b.answer c = some p)
    (hq : q ∈ c.partitions) : (b.load p).toNat ≤ (b.load q).toNat := by
  rw [answer_eq_earliestLeast?] at h
  exact UInt64.le_iff_toNat_le.mp ((earliestLeast?_eq_some h).2 q hq)

theorem Within.after (h : b.Within ps distance) (hsize : m.size ≤ distance)
    (hfits : ∀ q, (b.load q).toNat + m.size < 2 ^ 64) : (b.after ⟨m, ps⟩).Within ps distance := by
  intro p hp q hq
  rw [load_after_toNat b _ p (hfits p), load_after_toNat b _ q (hfits q)]
  have hpq := h p hp q hq
  by_cases hanswer : b.answer ⟨m, ps⟩ = some p
  · -- the partition that is charged was the least loaded one, and is ahead by this message at most
    have hleast := load_le_of_answer hanswer hq
    rw [if_pos hanswer]
    dsimp only
    split_ifs <;> omega
  · rw [if_neg hanswer]
    dsimp only
    split_ifs <;> omega

theorem within_run (htotal : octets ms < 2 ^ 64) (hsizes : ∀ m ∈ ms, m.size ≤ distance) :
    (fresh.run (callsFor ps ms)).Within ps distance := by
  induction ms using List.reverseRecOn with
  | nil => exact fun p _ q _ => Nat.zero_le _
  | append_singleton ms m ih =>
    simp only [octets_append, octets_cons, octets_nil] at htotal
    have hloads := load_run_fresh_le (callsFor ps ms) (by rw [messages_callsFor]; omega)
    rw [messages_callsFor] at hloads
    rw [callsFor_snoc, run_append]
    refine Within.after (ih (by omega) ?_) (hsizes m (by simp)) ?_
    · exact fun m' hm' => hsizes m' (by simp [hm'])
    · intro q
      have hload := hloads q
      omega

theorem placed_callsFor (hps : ps ≠ []) (b : Balancer) (ms : List Message) :
    (b.placed (callsFor ps ms)).map (·.2) = ms ∧
      ∀ entry ∈ b.placed (callsFor ps ms), entry.1 ∈ ps := by
  induction ms generalizing b with
  | nil => simp [callsFor, placed]
  | cons m ms ih =>
    obtain ⟨p, hanswer⟩ : ∃ p, b.answer ⟨m, ps⟩ = some p :=
      Option.ne_none_iff_exists'.mp (mt answer_eq_none_iff.mp hps)
    have hp : p ∈ ps := by
      rw [answer_eq_earliestLeast?] at hanswer
      exact (earliestLeast?_eq_some hanswer).1
    obtain ⟨hmessages, hpartitions⟩ := ih (b.after ⟨m, ps⟩)
    simp only [callsFor, List.map_cons, placed, hanswer] at hmessages hpartitions ⊢
    exact ⟨by simp [hmessages], List.forall_mem_cons.mpr ⟨hp, hpartitions⟩⟩

/-- **Loads stay balanced.** A balancer that is given the same partitions for every message, from the first on,
has sent every octet to one of them; and after each message the loads of any two of them differ by no more than
the largest message so far, whatever the sizes are, as long as all of them together can be counted. -/
theorem loads_stay_balanced (hps : ps ≠ []) (htotal : octets ms < 2 ^ 64) {sent : List Message}
    (hsent : sent <+: ms) :
    (fresh.run (callsFor ps sent)).Within ps (largest sent) ∧
    ∑ p ∈ ps.toFinset, ((fresh.run (callsFor ps sent)).load p).toNat = octets sent := by
  have hfits : octets sent < 2 ^ 64 := by
    obtain ⟨rest, rfl⟩ := hsent
    rw [octets_append] at htotal
    omega
  constructor
  · exact within_run hfits fun m => size_le_largest
  · obtain ⟨hmessages, hpartitions⟩ := placed_callsFor hps fresh sent
    simp only [load_run_fresh (callsFor ps sent) (by rwa [messages_callsFor])]
    rw [sum_octets_sentTo fun entry hentry => List.mem_toFinset.mpr (hpartitions entry hentry),
      hmessages]

/-- Four messages for partitions of which one is listed twice: the bound of the first three is met exactly. -/
theorem long_message_sets_the_distance :
    octets [sampleMessage 7, sampleMessage 2, {}, sampleMessage 4] < 2 ^ 64 ∧
    (fresh.run (callsFor [5, 5, 2, 9] [sampleMessage 7, sampleMessage 2, {}])).Within [5, 5, 2, 9] 7 ∧
    ((fresh.run (callsFor [5, 5, 2, 9] [sampleMessage 7, sampleMessage 2, {}])).load 5).toNat = 7 ∧
    ((fresh.run (callsFor [5, 5, 2, 9] [sampleMessage 7, sampleMessage 2, {}])).load 9).toNat = 0 := by
  have hps : ([5, 5, 2, 9] : List Int32) ≠ [] := by decide
  have htotal : octets [sampleMessage 7, sampleMessage 2, {}, sampleMessage 4] < 2 ^ 64 := by decide
  have hsent : [sampleMessage 7, sampleMessage 2, {}] <+:
      [sampleMessage 7, sampleMessage 2, {}, sampleMessage 4] := ⟨_, rfl⟩
  obtain ⟨hwithin, -⟩ := loads_stay_balanced hps htotal hsent
  exact ⟨htotal, hwithin, by decide, by decide⟩

end CompanyRegistry.Balancer
