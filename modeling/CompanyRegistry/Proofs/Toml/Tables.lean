import CompanyRegistry.Toml.Document
import Mathlib.Algebra.Ring.Int.Defs
import Mathlib.Data.List.Basic
import Mathlib.Data.List.Nodup
import Mathlib.Data.Option.Basic
import Mathlib.Tactic.SplitIfs

/-!
# What documents hold

In a document that is read no table has a key twice, at whatever depth, and no integer is past 63 bits
(`proper_of_parse?`). Tables are changed by `alter` alone, and it is used only to put a proper value in the
place of another or under a key that is new; so everything comes down to `alter_proper`. The readers of
values call one another, and the induction is on their count of steps.
-/

namespace CompanyRegistry.Toml

/-- No key stands twice in a table of the value, and its integers are those of 63 bits. -/
inductive Proper : Toml → Prop
  | text (s : String) : Proper (.text s)
  | integer {i : Int} (h : i < 2 ^ 63) : Proper (.integer i)
  | float : Proper .float
  | bool (b : Bool) : Proper (.bool b)
  | moment : Proper .moment
  | array {items : List Toml} (h : ∀ v ∈ items, Proper v) : Proper (.array items)
  | table {origin : Origin} {entries : Entries} (hkeys : (entries.map (·.1)).Nodup)
      (h : ∀ p ∈ entries, Proper p.2) : Proper (.table origin entries)
  | tables {items : List Entries} (hkeys : ∀ t ∈ items, (t.map (·.1)).Nodup)
      (h : ∀ t ∈ items, ∀ p ∈ t, Proper p.2) : Proper (.tables items)

/-- No key stands twice in a table or in a value of it. -/
structure ProperTable (entries : Entries) : Prop where
  keys : (entries.map (·.1)).Nodup
  values : ∀ p ∈ entries, p.2.Proper

variable {entries entries' : Entries} {origin : Origin} {key : String} {v : Toml}

theorem ProperTable.nil : ProperTable [] := ⟨List.nodup_nil, by simp⟩

theorem proper_table_iff : (table origin entries).Proper ↔ ProperTable entries := by
  constructor
  · intro h
    cases h with
    | table hkeys h => exact ⟨hkeys, h⟩
  · rintro ⟨hkeys, h⟩
    exact .table hkeys h

theorem proper_tables_iff {items : List Entries} :
    (tables items).Proper ↔ ∀ t ∈ items, ProperTable t := by
  constructor
  · intro h
    cases h with
    | tables hkeys h => exact fun t ht => ⟨hkeys t ht, h t ht⟩
  · intro h
    exact .tables (fun t ht => (h t ht).keys) fun t ht => (h t ht).values

/-! ### Changing tables -/

/-- A change gives a proper value for a proper one and for none. -/
def Keeps (f : Option Toml → Option Toml) : Prop :=
  ∀ old new, (∀ v, old = some v → v.Proper) → f old = some new → new.Proper

/-- A change gives a proper table for a proper one. -/
def KeepsTables (f : Entries → Option Entries) : Prop :=
  ∀ old new, ProperTable old → f old = some new → ProperTable new

/-- The keys are those there were, and the changed one if it is new. -/
theorem keys_alter {f : Option Toml → Option Toml} (h : alter key f entries = some entries') :
    entries'.map (·.1) =
      if key ∈ entries.map (·.1) then entries.map (·.1) else entries.map (·.1) ++ [key] := by
  induction entries generalizing entries' with
  | nil =>
    obtain ⟨v, -, rfl⟩ := Option.map_eq_some_iff.mp h
    simp
  | cons p entries ih =>
    obtain ⟨k, v⟩ := p
    rw [alter] at h
    split_ifs at h with hk
    · obtain ⟨v', -, rfl⟩ := Option.map_eq_some_iff.mp h
      simp [hk]
    · obtain ⟨more, hmore, rfl⟩ := Option.map_eq_some_iff.mp h
      have hne : key ≠ k := fun heq => hk heq.symm
      simp only [List.map_cons, List.mem_cons, hne, false_or, ih hmore]
      split_ifs <;> simp

theorem alter_proper {f : Option Toml → Option Toml} (hf : Keeps f) (hentries : ProperTable entries)
    (h : alter key f entries = some entries') : ProperTable entries' := by
  constructor
  · rw [keys_alter h]
    split_ifs with hkey
    · exact hentries.keys
    · exact List.nodup_append.mpr ⟨hentries.keys, List.nodup_singleton key, fun k hk k' hk' heq => by
        rw [List.mem_singleton.mp hk'] at heq
        exact hkey (heq ▸ hk)⟩
  · have hvalues := hentries.values
    clear hentries
    induction entries generalizing entries' with
    | nil =>
      obtain ⟨v, hv, rfl⟩ := Option.map_eq_some_iff.mp h
      intro p hp
      rw [List.mem_singleton.mp hp]
      exact hf none v (by simp) hv
    | cons p entries ih =>
      obtain ⟨k, v⟩ := p
      rw [alter] at h
      obtain ⟨hv, hmore⟩ := List.forall_mem_cons.mp hvalues
      split_ifs at h with hk
      · obtain ⟨v', hv', rfl⟩ := Option.map_eq_some_iff.mp h
        refine List.forall_mem_cons.mpr ⟨hf (some v) v' ?_ hv', hmore⟩
        rintro _ ⟨⟩
        exact hv
      · obtain ⟨after, hafter, rfl⟩ := Option.map_eq_some_iff.mp h
        exact List.forall_mem_cons.mpr ⟨hv, ih hafter hmore⟩

theorem alterLast_proper {f : Entries → Option Entries} (hf : KeepsTables f)
    {items items' : List Entries} (hitems : ∀ t ∈ items, ProperTable t)
    (h : alterLast f items = some items') : ∀ t ∈ items', ProperTable t := by
  fun_induction alterLast f items generalizing items' with
  | case1 => cases h
  | case2 t =>
    obtain ⟨t', ht', rfl⟩ := Option.map_eq_some_iff.mp h
    intro t hmem
    rw [List.mem_singleton.mp hmem]
    exact hf _ _ (hitems _ List.mem_cons_self) ht'
  | case3 t items hne ih =>
    obtain ⟨more, hmore, rfl⟩ := Option.map_eq_some_iff.mp h
    obtain ⟨ht, hrest⟩ := List.forall_mem_cons.mp hitems
    exact List.forall_mem_cons.mpr ⟨ht, ih hrest hmore⟩

theorem within_keeps {dotted : Bool} {f : Origin → Entries → Option Entries}
    (hf : ∀ origin, KeepsTables (f origin)) (path : List String) (origin : Origin) :
    KeepsTables (within dotted f path origin) := by
  induction path generalizing origin with
  | nil => exact hf origin
  | cons key path ih =>
    intro entries entries' hentries h
    rw [within] at h
    refine alter_proper ?_ hentries h
    intro old new hold hnew
    cases old with
    | none =>
      obtain ⟨made, hmade, rfl⟩ := Option.map_eq_some_iff.mp hnew
      exact proper_table_iff.mpr (ih _ _ _ .nil hmade)
    | some v =>
      have hv := hold v rfl
      cases v with
      | table origin inner =>
        dsimp only at hnew
        split_ifs at hnew
        obtain ⟨changed, hchanged, rfl⟩ := Option.map_eq_some_iff.mp hnew
        exact proper_table_iff.mpr (ih _ _ _ (proper_table_iff.mp hv) hchanged)
      | tables items =>
        obtain ⟨changed, hchanged, rfl⟩ := Option.map_eq_some_iff.mp hnew
        exact proper_tables_iff.mpr (alterLast_proper (ih _) (proper_tables_iff.mp hv) hchanged)
      | text | integer | float | bool | moment | array => cases hnew

theorem insertNew_keeps (hv : v.Proper) : KeepsTables (insertNew key v) := by
  intro entries entries' hentries h
  refine alter_proper ?_ hentries h
  intro old new hold hnew
  cases old with
  | none =>
    cases hnew
    exact hv
  | some _ => cases hnew

theorem insertAt_keeps (hv : v.Proper) (keys : List String) (origin : Origin) :
    KeepsTables (insertAt keys v origin) := by
  intro entries entries' hentries h
  unfold insertAt at h
  split at h
  · cases h
  · refine within_keeps ?_ _ _ _ _ hentries h
    intro o old new hold hnew
    split_ifs at hnew
    exact insertNew_keeps hv _ _ hold hnew

theorem openTable_keeps (keys : List String) : KeepsTables (openTable keys) := by
  intro entries entries' hentries h
  unfold openTable at h
  split at h
  · cases h
  · refine within_keeps ?_ _ _ _ _ hentries h
    intro o old new hold hnew
    refine alter_proper ?_ hold hnew
    intro v? v' hv? hv'
    dsimp only at hv'
    split at hv'
    · cases hv'
      exact proper_table_iff.mpr .nil
    · cases hv'
      exact proper_table_iff.mpr (proper_table_iff.mp (hv? _ rfl))
    · cases hv'

theorem openItem_keeps (keys : List String) : KeepsTables (openItem keys) := by
  intro entries entries' hentries h
  unfold openItem at h
  split at h
  · cases h
  · refine within_keeps ?_ _ _ _ _ hentries h
    intro o old new hold hnew
    refine alter_proper ?_ hold hnew
    intro v? v' hv? hv'
    dsimp only at hv'
    split at hv'
    · cases hv'
      exact proper_tables_iff.mpr (by simpa using ProperTable.nil)
    · cases hv'
      refine proper_tables_iff.mpr ?_
      intro t ht
      rcases List.mem_append.mp ht with hmem | hlast
      · exact proper_tables_iff.mp (hv? _ rfl) t hmem
      · rw [List.mem_singleton.mp hlast]
        exact .nil
    · cases hv'

/-! ### Reading values -/

theorem readBased?_lt {base : Nat} {cs rest : List Char} {i : Int}
    (h : readBased? base cs = some (i, rest)) : i < 2 ^ 63 := by
  unfold readBased? at h
  dsimp only at h
  split_ifs at h with hbad
  cases h
  have hsmall : ofBase base (readDigits (isDigitOf base) false cs).1 < Nat.pow 2 63 :=
    Nat.lt_of_not_le fun hle => hbad (Or.inr hle)
  have hpow : Nat.pow 2 63 = 2 ^ 63 := rfl
  omega

theorem readInteger?_lt {cs rest : List Char} {i : Int} (h : readInteger? cs = some (i, rest)) :
    i < 2 ^ 63 := by
  unfold readInteger? at h
  split at h
  · exact readBased?_lt h
  · exact readBased?_lt h
  · exact readBased?_lt h
  · simp only [Option.bind_eq_bind, Option.bind_eq_some_iff, Option.guard_eq_some', exists_const,
      Option.pure_def, Option.some.injEq, Prod.mk.injEq] at h
    obtain ⟨⟨ds, after⟩, -, hbound, rfl, -⟩ := h
    have hpow : Nat.pow 2 63 = 2 ^ 63 := rfl
    dsimp only at hbound ⊢
    split_ifs with hnegative
    · omega
    · rcases hbound with hsmall | ⟨hminus, -⟩
      · omega
      · exact absurd hminus hnegative

/-- With so many steps the readers give proper values only. -/
structure ReadersProper (fuel : Nat) : Prop where
  value : ∀ depth cs v rest, readValue? fuel depth cs = some (v, rest) → v.Proper
  items : ∀ depth acc cs v rest, (∀ w ∈ acc, w.Proper) →
    readItems? fuel depth acc cs = some (v, rest) → v.Proper
  pairs : ∀ depth entries cs v rest, ProperTable entries →
    readPairs? fuel depth entries cs = some (v, rest) → v.Proper

section
variable {fuel : Nat} {cs rest : List Char}

theorem ReadersProper.value_succ (ih : ReadersProper fuel) {depth : Nat}
    (h : readValue? (fuel + 1) depth cs = some (v, rest)) : v.Proper := by
  cases cs with
  | nil => cases h
  | cons c r =>
    rw [readValue?] at h
    split_ifs at h with harray hdeep htable hdeep' hstring htrue hfalse
    · exact ih.items _ _ _ _ _ (by simp) h
    · split at h
      · cases h
        exact proper_table_iff.mpr .nil
      · exact ih.pairs _ _ _ _ _ .nil h
    · obtain ⟨_, -, hresult⟩ := Option.map_eq_some_iff.mp h
      cases hresult
      exact .text _
    · obtain ⟨_, -, hresult⟩ := Option.map_eq_some_iff.mp h
      cases hresult
      exact .bool _
    · obtain ⟨_, -, hresult⟩ := Option.map_eq_some_iff.mp h
      cases hresult
      exact .bool _
    · split at h
      · cases h
        exact .moment
      · split at h
        · cases h
          exact .float
        · obtain ⟨⟨i, after⟩, hread, hresult⟩ := Option.map_eq_some_iff.mp h
          cases hresult
          exact .integer (readInteger?_lt hread)

theorem proper_array_of_reverse {items : List Toml} (h : ∀ w ∈ items, w.Proper) :
    (array items.reverse).Proper :=
  .array fun w hw => h w (List.mem_reverse.mp hw)

theorem ReadersProper.items_succ (ih : ReadersProper fuel) {depth : Nat} {acc : List Toml}
    (hacc : ∀ w ∈ acc, w.Proper) (h : readItems? (fuel + 1) depth acc cs = some (v, rest)) :
    v.Proper := by
  rw [readItems?] at h
  split at h
  · cases h
    exact proper_array_of_reverse hacc
  · split at h
    · cases h
    · rename_i item after hitem
      have hmore : ∀ w ∈ item :: acc, w.Proper :=
        List.forall_mem_cons.mpr ⟨ih.value _ _ _ _ hitem, hacc⟩
      split at h
      · exact ih.items _ _ _ _ _ hmore h
      · cases h
        exact proper_array_of_reverse hmore
      · cases h

theorem ReadersProper.pairs_succ (ih : ReadersProper fuel) {depth : Nat}
    (hentries : ProperTable entries) (h : readPairs? (fuel + 1) depth entries cs = some (v, rest)) :
    v.Proper := by
  rw [readPairs?] at h
  split at h
  · split at h
    · cases h
    · rename_i w after hw
      split at h
      · cases h
      · rename_i more hmore
        have hproper := insertAt_keeps (ih.value _ _ _ _ hw) _ _ _ _ hentries hmore
        split at h
        · exact ih.pairs _ _ _ _ _ hproper h
        · cases h
          exact proper_table_iff.mpr hproper
        · cases h
  · cases h

end

theorem readersProper (fuel : Nat) : ReadersProper fuel := by
  induction fuel with
  | zero =>
    refine ⟨?_, ?_, ?_⟩
    · intro depth cs v rest h
      cases h
    · intro depth acc cs v rest hacc h
      cases h
    · intro depth entries cs v rest hentries h
      cases h
  | succ fuel ih =>
    exact ⟨fun _ _ _ _ => ih.value_succ, fun _ _ _ _ _ => ih.items_succ,
      fun _ _ _ _ _ => ih.pairs_succ⟩

/-! ### Reading lines -/

section
variable {d d' : Draft} {cs rest : List Char}

theorem readHeader?_proper (hd : ProperTable d.root) (h : readHeader? d cs = some (d', rest)) :
    ProperTable d'.root := by
  simp only [readHeader?, Option.bind_eq_bind, Option.bind_eq_some_iff, Option.pure_def,
    Option.some.injEq, Prod.mk.injEq] at h
  obtain ⟨⟨keys, _⟩, -, _, -, root, hopen, _, -, rfl, -⟩ := h
  exact openTable_keeps keys _ _ hd hopen

theorem readItemHeader?_proper (hd : ProperTable d.root)
    (h : readItemHeader? d cs = some (d', rest)) : ProperTable d'.root := by
  simp only [readItemHeader?, Option.bind_eq_bind, Option.bind_eq_some_iff, Option.pure_def,
    Option.some.injEq, Prod.mk.injEq] at h
  obtain ⟨⟨keys, _⟩, -, _, -, _, -, root, hopen, _, -, rfl, -⟩ := h
  exact openItem_keeps keys _ _ hd hopen

theorem readPair?_proper (hd : ProperTable d.root) (h : readPair? d cs = some (d', rest)) :
    ProperTable d'.root := by
  simp only [readPair?, Option.bind_eq_bind, Option.bind_eq_some_iff, Option.pure_def,
    Option.some.injEq, Prod.mk.injEq] at h
  obtain ⟨⟨keys, _⟩, -, _, -, ⟨v, _⟩, hv, added, hadd, _, -, rfl, -⟩ := h
  obtain ⟨root, hroot, rfl⟩ := Option.map_eq_some_iff.mp hadd
  exact within_keeps (insertAt_keeps ((readersProper _).value _ _ _ _ hv) keys) _ _ _ _ hd hroot

theorem readLines?_proper {fuel : Nat} (hd : ProperTable d.root)
    (h : readLines? fuel d cs = some d') : ProperTable d'.root := by
  induction fuel generalizing d cs with
  | zero => cases h
  | succ fuel ih =>
    rw [readLines?] at h
    split at h
    · cases h
      exact hd
    · obtain ⟨⟨after, rest⟩, hline, hmore⟩ := Option.bind_eq_some_iff.mp h
      exact ih (readItemHeader?_proper hd hline) hmore
    · obtain ⟨⟨after, rest⟩, hline, hmore⟩ := Option.bind_eq_some_iff.mp h
      exact ih (readHeader?_proper hd hline) hmore
    · split_ifs at h
      · obtain ⟨rest, -, hmore⟩ := Option.bind_eq_some_iff.mp h
        exact ih hd hmore
      · obtain ⟨⟨after, rest⟩, hline, hmore⟩ := Option.bind_eq_some_iff.mp h
        exact ih (readPair?_proper hd hline) hmore

end

/-- **A document that is read is proper**: no table in it has a key twice. -/
theorem proper_of_parse? {s : String} (h : parse? s = some entries) : ProperTable entries := by
  obtain ⟨d, hd, rfl⟩ := Option.map_eq_some_iff.mp h
  exact readLines?_proper .nil hd

end CompanyRegistry.Toml
