import CompanyRegistry.Proofs.Outcome
import CompanyRegistry.Toml.Printer
import CompanyRegistry.Toml.Scalar
import Mathlib.Data.List.TakeWhile
import Mathlib.Tactic.ByContra
import Mathlib.Tactic.SplitIfs

/-!
# TOML strings, read back

Whatever form the printer chooses for a text, the reader gives the text back and leaves what follows
(`readString?_stringChars`). Between quotes every character is either written as it is or as an escape that
stands for it (`escapeChar_cases`), so both forms between quotes can hold any text. In the two long forms
the danger are quotes in a row: three of them end the string wherever they stand. At each place of a text
so written there are fewer than three before another character comes, or the text ends there with at most
two (`escapeLines_shape`, `literal_shape`).
-/

namespace CompanyRegistry.Toml

variable {cs rest acc : List Char} {fuel : Nat}

/-! ### Runs of a character -/

/-- Counting the runs of `c`: the longest so far and the one that has not ended. -/
def countRun (c : Char) (s : Nat × Nat) (x : Char) : Nat × Nat :=
  if x = c then (max s.1 (s.2 + 1), s.2 + 1) else (s.1, 0)

theorem longestRun_eq (c : Char) (cs : List Char) :
    longestRun c cs = (cs.foldl (countRun c) (0, 0)).1 := rfl

theorem le_foldl_countRun (c : Char) (cs : List Char) (s : Nat × Nat) :
    s.1 ≤ (cs.foldl (countRun c) s).1 := by
  induction cs generalizing s with
  | nil => exact Nat.le_refl _
  | cons x cs ih =>
    refine Nat.le_trans ?_ (ih (countRun c s x))
    unfold countRun
    split_ifs
    · exact Nat.le_max_left _ _
    · exact Nat.le_refl _

theorem le_foldl_replicate (c : Char) (k : Nat) (s : Nat × Nat) :
    s.1 ≤ ((List.replicate k c).foldl (countRun c) s).1 ∧
      (0 < k → s.2 + k ≤ ((List.replicate k c).foldl (countRun c) s).1) := by
  induction k generalizing s with
  | zero => exact ⟨Nat.le_refl _, fun h => absurd h (Nat.lt_irrefl 0)⟩
  | succ k ih =>
    have hstep : countRun c s c = (max s.1 (s.2 + 1), s.2 + 1) := if_pos rfl
    obtain ⟨hbest, hrun⟩ := ih (max s.1 (s.2 + 1), s.2 + 1)
    rw [List.replicate_succ, List.foldl_cons, hstep]
    dsimp only at hbest hrun ⊢
    refine ⟨by omega, fun _ => ?_⟩
    by_cases hk : 0 < k
    · have := hrun hk
      omega
    · omega

/-- No run is longer than the longest. -/
theorem le_longestRun {c : Char} {k : Nat} (h : List.replicate k c <:+: cs) :
    k ≤ longestRun c cs := by
  obtain ⟨before, after, rfl⟩ := h
  by_cases hk : 0 < k
  · rw [longestRun_eq, List.foldl_append, List.foldl_append]
    obtain ⟨-, hrun⟩ := le_foldl_replicate c k (before.foldl (countRun c) (0, 0))
    have hafter := le_foldl_countRun c after
      ((List.replicate k c).foldl (countRun c) (before.foldl (countRun c) (0, 0)))
    have := hrun hk
    omega
  · omega

theorem not_mem_of_longestRun {c : Char} (h : longestRun c cs = 0) : c ∉ cs := by
  intro hc
  obtain ⟨before, after, rfl⟩ := List.append_of_mem hc
  have hrun : List.replicate 1 c <:+: before ++ c :: after := ⟨before, after, by simp⟩
  have := le_longestRun hrun
  omega

/-! ### Escapes -/

theorem isControl_of_not_needsEscape {c : Char} (h : needsEscape c = false) (hline : c ≠ '\n') :
    isControl c = false := by
  simp only [needsEscape, Bool.or_eq_false_iff, Bool.and_eq_false_iff, bne_eq_false_iff_eq] at h
  simp only [isControl, Bool.or_eq_false_iff, Bool.and_eq_false_iff, bne_eq_false_iff_eq]
  obtain ⟨hlow, hdel⟩ := h
  refine ⟨?_, hdel⟩
  rcases hlow with (hlow | htab) | hnewline
  · exact Or.inl hlow
  · exact Or.inr htab
  · exact absurd hnewline hline

theorem hexValue?_upperHex {n : Nat} (h : n < 16) : Bytes.hexValue? (upperHex n) = some n := by
  have hall : ∀ n : Fin 16, Bytes.hexValue? (upperHex n) = some n.val := by decide
  exact hall ⟨n, h⟩

theorem readEscape?_code {c : Char} (h : c.toNat < 128) (rest : List Char) :
    readEscape? ('u' :: '0' :: '0' :: upperHex (c.toNat / 16) :: upperHex (c.toNat % 16) :: rest) =
      some (c, rest) := by
  have hdigits : ((['0', '0', upperHex (c.toNat / 16), upperHex (c.toNat % 16)] ++ rest).take 4).mapM
      Bytes.hexValue? = some [0, 0, c.toNat / 16, c.toNat % 16] := by
    have hzero : Bytes.hexValue? '0' = some 0 := by decide
    simp [hzero, hexValue?_upperHex (show c.toNat / 16 < 16 by omega),
      hexValue?_upperHex (Nat.mod_lt c.toNat (show 0 < 16 by decide))]
  have hvalue : [0, 0, c.toNat / 16, c.toNat % 16].foldl (fun n d => n * 16 + d) 0 = c.toNat := by
    simp only [List.foldl_cons, List.foldl_nil]
    omega
  show readCodePoint? 4 (['0', '0', upperHex (c.toNat / 16), upperHex (c.toNat % 16)] ++ rest) = _
  refine bind_of_some hdigits (bind_of_some (guard_of_true rfl) ?_)
  refine bind_of_some (guard_of_true (Or.inl ?_)) ?_
  · rw [hvalue]
    omega
  · rw [hvalue, Char.ofNat_toNat]
    rfl

/-- A character stands between quotes as an escape that means it, or as it is. -/
theorem escapeChar_cases {c : Char} (hquote : c ≠ '"') (hline : c ≠ '\n') :
    (∃ e, escapeChar c = '\\' :: e ∧ (∀ rest, readEscape? (e ++ rest) = some (c, rest)) ∧
      ∀ rest, readContinuation? (e ++ rest) = none) ∨
    (escapeChar c = [c] ∧ c ≠ '\\' ∧ isControl c = false) := by
  unfold escapeChar
  split_ifs with hb ht hf hr hbackslash hescape
  · exact Or.inl ⟨['b'], rfl, fun rest => by subst hb; rfl, fun rest => rfl⟩
  · exact Or.inl ⟨['t'], rfl, fun rest => by subst ht; rfl, fun rest => rfl⟩
  · exact Or.inl ⟨['f'], rfl, fun rest => by subst hf; rfl, fun rest => rfl⟩
  · exact Or.inl ⟨['r'], rfl, fun rest => by subst hr; rfl, fun rest => rfl⟩
  · exact Or.inl ⟨['\\'], rfl, fun rest => by subst hbackslash; rfl, fun rest => rfl⟩
  · have hcode : c.toNat < 128 := by
      simp only [needsEscape, Bool.or_eq_true, Bool.and_eq_true, decide_eq_true_eq, beq_iff_eq]
        at hescape
      omega
    exact Or.inl ⟨_, rfl, readEscape?_code hcode, fun rest => rfl⟩
  · exact Or.inr ⟨rfl, hbackslash,
      isControl_of_not_needsEscape (Bool.eq_false_iff.mpr hescape) hline⟩

/-! ### On one line -/

/-- A character on one line between quotes. -/
def lineChar (c : Char) : List Char :=
  if c = '"' then ['\\', '"'] else if c = '\n' then ['\\', 'n'] else escapeChar c

theorem escapeLine_cons (c : Char) (cs : List Char) :
    escapeLine (c :: cs) = lineChar c ++ escapeLine cs := List.flatMap_cons

theorem lineChar_cases (c : Char) :
    (∃ e, lineChar c = '\\' :: e ∧ ∀ rest, readEscape? (e ++ rest) = some (c, rest)) ∨
    (lineChar c = [c] ∧ c ≠ '"' ∧ c ≠ '\\' ∧ isControl c = false) := by
  unfold lineChar
  split_ifs with hquote hline
  · exact Or.inl ⟨['"'], rfl, fun rest => by subst hquote; rfl⟩
  · exact Or.inl ⟨['n'], rfl, fun rest => by subst hline; rfl⟩
  · rcases escapeChar_cases hquote hline with ⟨e, he, hread, -⟩ | ⟨hplain, hbackslash, hcontrol⟩
    · exact Or.inl ⟨e, he, hread⟩
    · exact Or.inr ⟨hplain, hquote, hbackslash, hcontrol⟩

theorem length_le_escapeLine (cs : List Char) : cs.length ≤ (escapeLine cs).length := by
  induction cs with
  | nil => exact Nat.le_refl 0
  | cons c cs ih =>
    rw [escapeLine_cons, List.length_append, List.length_cons]
    rcases lineChar_cases c with ⟨e, he, -⟩ | ⟨hplain, -⟩
    · rw [he, List.length_cons]
      omega
    · rw [hplain, List.length_singleton]
      omega

theorem readBasic?_escapeLine (h : cs.length < fuel) :
    readBasic? fuel acc (escapeLine cs ++ '"' :: rest) = some (acc.reverse ++ cs, rest) := by
  induction cs generalizing fuel acc with
  | nil =>
    obtain ⟨fuel, rfl⟩ := Nat.exists_eq_add_of_lt h
    simp [escapeLine, readBasic?]
  | cons c cs ih =>
    obtain ⟨fuel, rfl⟩ : ∃ n, fuel = n + 1 := ⟨fuel - 1, by omega⟩
    rw [List.length_cons] at h
    have hrest : readBasic? fuel (c :: acc) (escapeLine cs ++ '"' :: rest) =
        some ((c :: acc).reverse ++ cs, rest) := ih (by omega)
    rw [List.reverse_cons, List.append_assoc, List.singleton_append] at hrest
    rw [escapeLine_cons, List.append_assoc]
    rcases lineChar_cases c with ⟨e, he, hread⟩ | ⟨hplain, hquote, hbackslash, hcontrol⟩
    · rw [he, List.cons_append, readBasic?, if_neg (by decide), if_pos rfl, hread]
      exact hrest
    · rw [hplain, List.singleton_append, readBasic?, if_neg hquote, if_neg hbackslash, hcontrol]
      exact hrest

theorem readLiteral?_append (h : ∀ c ∈ cs, c ≠ '\'' ∧ isControl c = false) :
    readLiteral? (cs ++ '\'' :: rest) = some (cs, rest) := by
  have hpass : ∀ c ∈ cs, (decide (c ≠ '\'') && !isControl c) = true := by
    intro c hc
    obtain ⟨hquote, hcontrol⟩ := h c hc
    simp [hquote, hcontrol]
  have hbody : (cs ++ '\'' :: rest).takeWhile (fun c => c ≠ '\'' && !isControl c) = cs := by
    rw [List.takeWhile_append_of_pos hpass]
    simp
  unfold readLiteral?
  simp only [hbody, List.drop_left]

/-! ### Over several lines -/

/-- Three of the character and up to two before them end a string. -/
theorem readTriple?_end {q : Char} {k : Nat} (hk : k ≤ 2) (hrest : rest.head? ≠ some q) :
    readTriple? q (List.replicate k q ++ (q :: q :: q :: rest)) =
      some (List.replicate k q, rest) := by
  have hall : List.replicate k q ++ (q :: q :: q :: rest) = List.replicate (k + 3) q ++ rest := by
    rw [← List.replicate_append_replicate, List.append_assoc]
    rfl
  have hnone : rest.takeWhile (· = q) = [] := by
    cases rest with
    | nil => rfl
    | cons c rest =>
      have hc : c ≠ q := fun h => hrest (congrArg some h)
      simp [hc]
  have hrun : ((List.replicate (k + 3) q ++ rest).takeWhile (· = q)).length = k + 3 := by
    rw [List.takeWhile_append_of_pos (by simp), hnone, List.append_nil, List.length_replicate]
  have hextra : min (k + 3 - 3) 2 = k := by omega
  rw [hall]
  unfold readTriple?
  simp only [hrun, hextra]
  rw [if_neg (by omega), List.drop_left' List.length_replicate]

/-- Up to two of the character before another one end nothing. -/
theorem readTriple?_none {q c : Char} {k : Nat} (hk : k ≤ 2) (hc : c ≠ q) :
    readTriple? q (List.replicate k q ++ c :: rest) = none := by
  have hrun : ((List.replicate k q ++ c :: rest).takeWhile (· = q)).length = k := by
    rw [List.takeWhile_append_of_pos (by simp)]
    simp [hc]
  unfold readTriple?
  simp only [hrun]
  rw [if_pos (by omega)]

/-- How a text goes on where it may not end: up to `most` of the character, then another one. -/
def GoesOn (q : Char) (most : Nat) (text : List Char) : Prop :=
  ∃ k c after, text = List.replicate k q ++ c :: after ∧ k ≤ most ∧ c ≠ q

theorem GoesOn.cons {q : Char} {most : Nat} {text : List Char} (h : GoesOn q most text) :
    GoesOn q (most + 1) (q :: text) := by
  obtain ⟨k, c, after, rfl, hk, hc⟩ := h
  exact ⟨k + 1, c, after, rfl, Nat.succ_le_succ hk, hc⟩

theorem GoesOn.of_ne {q c : Char} (hc : c ≠ q) (most : Nat) (after : List Char) :
    GoesOn q most (c :: after) :=
  ⟨0, c, after, rfl, Nat.zero_le most, hc⟩

theorem GoesOn.readTriple? {q : Char} {most : Nat} {text : List Char} (h : GoesOn q most text)
    (hmost : most ≤ 2) (rest : List Char) : readTriple? q (text ++ rest) = none := by
  obtain ⟨k, c, after, rfl, hk, hc⟩ := h
  rw [List.append_assoc, List.cons_append]
  exact readTriple?_none (Nat.le_trans hk hmost) hc

theorem escapeChar_head {c : Char} (hquote : c ≠ '"') (hline : c ≠ '\n') :
    ∃ x after, escapeChar c = x :: after ∧ x ≠ '"' := by
  rcases escapeChar_cases hquote hline with ⟨e, he, -⟩ | ⟨hplain, -⟩
  · exact ⟨_, e, he, by decide⟩
  · exact ⟨c, [], hplain, hquote⟩

theorem escapeLines_quote (cs : List Char) {run : Nat} (h : run < 2) :
    escapeLines run ('"' :: cs) = '"' :: escapeLines (run + 1) cs := by
  rw [escapeLines, if_pos rfl, if_neg (by omega)]

theorem escapeLines_thirdQuote (cs : List Char) :
    escapeLines 2 ('"' :: cs) = '\\' :: '"' :: escapeLines 0 cs := by
  rw [escapeLines, if_pos rfl, if_pos rfl]

theorem escapeLines_newline (run : Nat) (cs : List Char) :
    escapeLines run ('\n' :: cs) = '\n' :: escapeLines 0 cs := by
  rw [escapeLines, if_neg (by decide), if_pos rfl]

theorem escapeLines_other {c : Char} (hquote : c ≠ '"') (hline : c ≠ '\n') (run : Nat)
    (cs : List Char) : escapeLines run (c :: cs) = escapeChar c ++ escapeLines 0 cs := by
  rw [escapeLines, if_neg hquote, if_neg hline]

/-- With `run` quotes before it, a text either is few quotes to its end, or its escaped form goes on. -/
theorem escapeLines_shape {run : Nat} (hrun : run ≤ 2) (cs : List Char) :
    (∃ k, cs = List.replicate k '"' ∧ run + k ≤ 2) ∨ GoesOn '"' (2 - run) (escapeLines run cs) := by
  induction cs generalizing run with
  | nil => exact Or.inl ⟨0, rfl, hrun⟩
  | cons c cs ih =>
    by_cases hquote : c = '"'
    · subst hquote
      by_cases hthird : run = 2
      · subst hthird
        rw [escapeLines_thirdQuote]
        exact Or.inr (.of_ne (by decide) _ _)
      · rcases ih (show run + 1 ≤ 2 by omega) with ⟨k, rfl, hk⟩ | hgoes
        · exact Or.inl ⟨k + 1, rfl, by omega⟩
        · rw [escapeLines_quote cs (by omega), show 2 - run = 2 - (run + 1) + 1 by omega]
          exact Or.inr hgoes.cons
    · right
      by_cases hline : c = '\n'
      · rw [hline, escapeLines_newline]
        exact .of_ne (by decide) _ _
      · obtain ⟨x, after, hx, hne⟩ := escapeChar_head hquote hline
        rw [escapeLines_other hquote hline, hx]
        exact .of_ne hne _ _

theorem length_le_escapeLines (run : Nat) (cs : List Char) :
    cs.length ≤ (escapeLines run cs).length := by
  fun_induction escapeLines run cs with
  | case1 => exact Nat.le_refl 0
  | case2 cs ih =>
    simp only [List.length_cons]
    omega
  | case3 run cs hthird ih =>
    simp only [List.length_cons]
    omega
  | case4 run cs hquote ih =>
    simp only [List.length_cons]
    omega
  | case5 run c cs hquote hline ih =>
    obtain ⟨x, after, hx, -⟩ := escapeChar_head hquote hline
    rw [hx]
    simp only [List.length_cons, List.length_append]
    omega

theorem escapeLines_replicate {run k : Nat} (h : run + k ≤ 2) :
    escapeLines run (List.replicate k '"') = List.replicate k '"' := by
  induction k generalizing run with
  | zero => rfl
  | succ k ih =>
    rw [List.replicate_succ, escapeLines_quote _ (by omega), ih (by omega)]

theorem readLongBasic?_end {text extra : List Char}
    (h : readTriple? '"' text = some (extra, rest)) :
    readLongBasic? (fuel + 1) acc text = some (acc.reverse ++ extra, rest) := by
  cases text with
  | nil => cases h
  | cons c text => rw [readLongBasic?, h]

theorem readLongBasic?_escape {e : List Char} {c : Char}
    (hgoes : readTriple? '"' ('\\' :: (e ++ rest)) = none)
    (hblank : readContinuation? (e ++ rest) = none) (hread : readEscape? (e ++ rest) = some (c, rest)) :
    readLongBasic? (fuel + 1) acc ('\\' :: (e ++ rest)) = readLongBasic? fuel (c :: acc) rest := by
  rw [readLongBasic?, hgoes, if_pos rfl, hblank, hread]

theorem readNewline?_of_not_control {c : Char} (h : isControl c = false) :
    readNewline? (c :: rest) = none := by
  unfold readNewline?
  split
  · rename_i heq
    cases heq
    cases h
  · rename_i heq
    cases heq
    cases h
  · rfl

theorem readLongBasic?_plain {c : Char} (hgoes : readTriple? '"' (c :: rest) = none)
    (hbackslash : c ≠ '\\') (hcontrol : isControl c = false) :
    readLongBasic? (fuel + 1) acc (c :: rest) = readLongBasic? fuel (c :: acc) rest := by
  rw [readLongBasic?, hgoes, if_neg hbackslash, readNewline?_of_not_control hcontrol, hcontrol]
  rfl

theorem readLongBasic?_newline (hgoes : readTriple? '"' ('\n' :: rest) = none) :
    readLongBasic? (fuel + 1) acc ('\n' :: rest) = readLongBasic? fuel ('\n' :: acc) rest := by
  rw [readLongBasic?, hgoes, if_neg (by decide)]
  rfl

theorem readLongBasic?_escapeLines {run : Nat} (hrun : run ≤ 2) (h : cs.length < fuel)
    (hrest : rest.head? ≠ some '"') :
    readLongBasic? fuel acc (escapeLines run cs ++ '"' :: '"' :: '"' :: rest) =
      some (acc.reverse ++ cs, rest) := by
  induction cs generalizing run fuel acc with
  | nil =>
    obtain ⟨fuel, rfl⟩ := Nat.exists_eq_add_of_lt h
    exact readLongBasic?_end (readTriple?_end (Nat.zero_le 2) hrest)
  | cons c cs ih =>
    obtain ⟨fuel, rfl⟩ : ∃ n, fuel = n + 1 := ⟨fuel - 1, by omega⟩
    rw [List.length_cons] at h
    have hafter : ∀ run ≤ 2, readLongBasic? fuel (c :: acc)
        (escapeLines run cs ++ '"' :: '"' :: '"' :: rest) = some (acc.reverse ++ c :: cs, rest) := by
      intro run hrun
      have hread : readLongBasic? fuel (c :: acc) (escapeLines run cs ++ '"' :: '"' :: '"' :: rest) =
          some ((c :: acc).reverse ++ cs, rest) := ih hrun (by omega)
      rwa [List.reverse_cons, List.append_assoc, List.singleton_append] at hread
    rcases escapeLines_shape hrun (c :: cs) with ⟨k, hk, hfew⟩ | hgoes
    · rw [hk, escapeLines_replicate hfew]
      exact readLongBasic?_end (readTriple?_end (by omega) hrest)
    · replace hgoes := hgoes.readTriple? (Nat.sub_le 2 run) ('"' :: '"' :: '"' :: rest)
      by_cases hquote : c = '"'
      · subst hquote
        by_cases hthird : run = 2
        · subst hthird
          rw [escapeLines_thirdQuote] at hgoes ⊢
          exact (readLongBasic?_escape (e := ['"']) hgoes rfl rfl).trans (hafter 0 (by decide))
        · rw [escapeLines_quote cs (by omega)] at hgoes ⊢
          exact (readLongBasic?_plain hgoes (by decide) rfl).trans (hafter (run + 1) (by omega))
      · by_cases hline : c = '\n'
        · subst hline
          rw [escapeLines_newline] at hgoes ⊢
          exact (readLongBasic?_newline hgoes).trans (hafter 0 (by decide))
        · rw [escapeLines_other hquote hline, List.append_assoc] at hgoes ⊢
          rcases escapeChar_cases hquote hline with
            ⟨e, he, hread, hblank⟩ | ⟨hplain, hbackslash, hcontrol⟩
          · rw [he] at hgoes ⊢
            exact (readLongBasic?_escape hgoes (hblank _) (hread _)).trans (hafter 0 (by decide))
          · rw [hplain] at hgoes ⊢
            exact (readLongBasic?_plain hgoes hbackslash hcontrol).trans (hafter 0 (by decide))

/-! ### Literally over several lines -/

/-- A text without three of the character in a row is few of them, or goes on. -/
theorem literal_shape {q : Char} (h : ¬ List.replicate 3 q <:+: cs) :
    (∃ k, cs = List.replicate k q ∧ k ≤ 2) ∨ GoesOn q 2 cs := by
  have hsplit := List.takeWhile_append_dropWhile (p := (· = q)) (l := cs)
  have hrun : cs.takeWhile (· = q) = List.replicate (cs.takeWhile (· = q)).length q := by
    refine List.eq_replicate_iff.mpr ⟨rfl, ?_⟩
    intro c hc
    simpa using List.mem_takeWhile_imp hc
  have hfew : (cs.takeWhile (· = q)).length ≤ 2 := by
    by_contra hmany
    apply h
    refine ⟨[], List.replicate ((cs.takeWhile (· = q)).length - 3) q ++ cs.dropWhile (· = q), ?_⟩
    rw [List.nil_append, ← List.append_assoc, List.replicate_append_replicate,
      show 3 + ((cs.takeWhile (· = q)).length - 3) = (cs.takeWhile (· = q)).length by omega, ← hrun]
    exact hsplit
  cases hafter : cs.dropWhile (· = q) with
  | nil =>
    rw [hafter, List.append_nil] at hsplit
    exact Or.inl ⟨_, hsplit.symm.trans hrun, hfew⟩
  | cons c after =>
    have hc := List.head?_dropWhile_not (fun c => decide (c = q)) cs
    rw [hafter] at hc
    rw [hafter, hrun] at hsplit
    exact Or.inr ⟨_, c, after, hsplit.symm, hfew, by simpa using hc⟩

theorem readLongLiteral?_end {text extra : List Char}
    (h : readTriple? '\'' text = some (extra, rest)) :
    readLongLiteral? (fuel + 1) acc text = some (acc.reverse ++ extra, rest) := by
  cases text with
  | nil => cases h
  | cons c text => rw [readLongLiteral?, h]

theorem readLongLiteral?_plain {c : Char} (hgoes : readTriple? '\'' (c :: rest) = none)
    (hc : c = '\n' ∨ isControl c = false) :
    readLongLiteral? (fuel + 1) acc (c :: rest) = readLongLiteral? fuel (c :: acc) rest := by
  rcases hc with rfl | hcontrol
  · rw [readLongLiteral?, hgoes]
    rfl
  · rw [readLongLiteral?, hgoes, readNewline?_of_not_control hcontrol, hcontrol]
    rfl

theorem readLongLiteral?_append (htriple : ¬ List.replicate 3 '\'' <:+: cs)
    (hplain : ∀ c ∈ cs, c = '\n' ∨ isControl c = false) (h : cs.length < fuel)
    (hrest : rest.head? ≠ some '\'') :
    readLongLiteral? fuel acc (cs ++ '\'' :: '\'' :: '\'' :: rest) =
      some (acc.reverse ++ cs, rest) := by
  induction cs generalizing fuel acc with
  | nil =>
    obtain ⟨fuel, rfl⟩ := Nat.exists_eq_add_of_lt h
    exact readLongLiteral?_end (readTriple?_end (Nat.zero_le 2) hrest)
  | cons c cs ih =>
    obtain ⟨fuel, rfl⟩ : ∃ n, fuel = n + 1 := ⟨fuel - 1, by omega⟩
    rw [List.length_cons] at h
    rcases literal_shape htriple with ⟨k, hk, hfew⟩ | hgoes
    · rw [hk]
      exact readLongLiteral?_end (readTriple?_end hfew hrest)
    · replace hgoes := hgoes.readTriple? (Nat.le_refl 2) ('\'' :: '\'' :: '\'' :: rest)
      have hread : readLongLiteral? fuel (c :: acc) (cs ++ '\'' :: '\'' :: '\'' :: rest) =
          some ((c :: acc).reverse ++ cs, rest) :=
        ih (fun hinside => htriple (hinside.trans (List.suffix_cons c cs).isInfix))
          (fun d hd => hplain d (List.mem_cons_of_mem c hd)) (by omega)
      rw [List.reverse_cons, List.append_assoc, List.singleton_append] at hread
      exact (readLongLiteral?_plain hgoes (hplain c List.mem_cons_self)).trans hread

/-! ### The forms -/

theorem not_control_of_mem {c : Char} (hplain : cs.any needsEscape = false) (hc : c ∈ cs)
    (hline : c ≠ '\n') : isControl c = false := by
  refine isControl_of_not_needsEscape ?_ hline
  have hall := List.any_eq_false.mp hplain c hc
  simpa using hall

theorem plain_of_literal (h : formOf cs = .literal) :
    ∀ c ∈ cs, c ≠ '\'' ∧ isControl c = false := by
  have hform : cs.any needsEscape = false ∧ longestRun '\'' cs = 0 ∧ cs.contains '\n' = false := by
    unfold formOf at h
    dsimp only at h
    split_ifs at h with hbasic hliteral
    simpa [and_assoc] using hliteral
  obtain ⟨hplain, hrun, hlines⟩ := hform
  intro c hc
  have hquote : c ≠ '\'' := by
    rintro rfl
    exact not_mem_of_longestRun hrun hc
  have hline : c ≠ '\n' := by
    rintro rfl
    rw [List.contains_iff_mem.mpr hc] at hlines
    cases hlines
  exact ⟨hquote, not_control_of_mem hplain hc hline⟩

theorem plain_of_longLiteral (h : formOf cs = .longLiteral) :
    ¬ List.replicate 3 '\'' <:+: cs ∧ ∀ c ∈ cs, c = '\n' ∨ isControl c = false := by
  have hform : cs.any needsEscape = false ∧ longestRun '\'' cs ≤ 2 := by
    unfold formOf at h
    dsimp only at h
    split_ifs at h with hbasic hliteral hlongBasic hlongLiteral
    simpa using hlongLiteral
  obtain ⟨hplain, hrun⟩ := hform
  constructor
  · intro htriple
    have := le_longestRun htriple
    omega
  · intro c hc
    by_cases hline : c = '\n'
    · exact Or.inl hline
    · exact Or.inr (not_control_of_mem hplain hc hline)

/-! ### Opening a string -/

theorem readString?_quote {text : List Char} (h : ∀ r, text ≠ '"' :: '"' :: r) :
    readString? ('"' :: text) = readBasic? (text.length + 1) [] text := by
  unfold readString?
  split
  · rename_i heq
    exact absurd (List.cons.inj heq).2 (h _)
  · rename_i heq
    cases heq
  · rename_i heq
    rw [(List.cons.inj heq).2]
  · rename_i heq
    cases heq
  · rename_i hbasic hliteral
    exact absurd rfl (hbasic text)

theorem readString?_apostrophe {text : List Char} (h : ∀ r, text ≠ '\'' :: '\'' :: r) :
    readString? ('\'' :: text) = readLiteral? text := by
  unfold readString?
  split
  · rename_i heq
    cases heq
  · rename_i heq
    exact absurd (List.cons.inj heq).2 (h _)
  · rename_i heq
    cases heq
  · rename_i heq
    rw [(List.cons.inj heq).2]
  · rename_i hbasic hliteral
    exact absurd rfl (hliteral text)

/-- The line feed after an opening is passed over, and without one nothing is. -/
theorem skipFirstNewline_opening (cs : List Char) {text : List Char}
    (h : '\n' ∉ cs → readNewline? text = none) :
    skipFirstNewline ((if cs.contains '\n' then ['\n'] else []) ++ text) = text := by
  unfold skipFirstNewline
  by_cases hline : cs.contains '\n' = true
  · rw [if_pos hline]
    rfl
  · rw [if_neg hline, List.nil_append, h fun hmem => hline (List.contains_iff_mem.mpr hmem)]
    rfl

theorem readNewline?_escapeLines (hline : '\n' ∉ cs) (rest : List Char) :
    readNewline? (escapeLines 0 cs ++ '"' :: rest) = none := by
  cases cs with
  | nil => exact readNewline?_of_not_control (by decide)
  | cons c cs =>
    by_cases hquote : c = '"'
    · rw [hquote, escapeLines_quote _ (by decide)]
      exact readNewline?_of_not_control (by decide)
    · have hc : c ≠ '\n' := fun h => hline (h ▸ List.mem_cons_self)
      rw [escapeLines_other hquote hc]
      rcases escapeChar_cases hquote hc with ⟨e, he, -⟩ | ⟨hplain, -, hcontrol⟩
      · rw [he]
        exact readNewline?_of_not_control (by decide)
      · rw [hplain]
        exact readNewline?_of_not_control hcontrol

/-- **A text is read back** from whatever form it is written in. -/
theorem readString?_stringChars (cs : List Char) (hquote : rest.head? ≠ some '"')
    (hapostrophe : rest.head? ≠ some '\'') :
    readString? (stringChars cs ++ rest) = some (cs, rest) := by
  cases hform : formOf cs with
  | basic =>
    have hshort : ∀ r, escapeLine cs ++ '"' :: rest ≠ '"' :: '"' :: r := by
      intro r heq
      cases cs with
      | nil => exact hquote (by rw [(List.cons.inj heq).2]; rfl)
      | cons c cs =>
        rw [escapeLine_cons] at heq
        rcases lineChar_cases c with ⟨e, he, -⟩ | ⟨hplain, hc, -⟩
        · rw [he] at heq
          cases heq
        · rw [hplain] at heq
          exact hc (List.cons.inj heq).1
    have hlength := length_le_escapeLine cs
    simp only [stringChars, hform, List.cons_append, List.append_assoc, List.nil_append]
    rw [readString?_quote hshort]
    exact readBasic?_escapeLine (by rw [List.length_append]; omega)
  | literal =>
    have hplain := plain_of_literal hform
    have hshort : ∀ r, cs ++ '\'' :: rest ≠ '\'' :: '\'' :: r := by
      intro r heq
      cases cs with
      | nil => exact hapostrophe (by rw [(List.cons.inj heq).2]; rfl)
      | cons c cs => exact (hplain c List.mem_cons_self).1 (List.cons.inj heq).1
    simp only [stringChars, hform, List.cons_append, List.append_assoc, List.nil_append]
    rw [readString?_apostrophe hshort]
    exact readLiteral?_append hplain
  | longBasic =>
    have hlength := length_le_escapeLines 0 cs
    have hopening := skipFirstNewline_opening cs fun hline =>
      readNewline?_escapeLines hline ('"' :: '"' :: rest)
    simp only [stringChars, hform, longOpening, List.cons_append, List.append_assoc,
      List.nil_append, readString?, hopening]
    exact readLongBasic?_escapeLines (by decide) (by rw [List.length_append]; omega) hquote
  | longLiteral =>
    obtain ⟨htriple, hplain⟩ := plain_of_longLiteral hform
    have hopening : skipFirstNewline ((if cs.contains '\n' then ['\n'] else []) ++
        (cs ++ '\'' :: '\'' :: '\'' :: rest)) = cs ++ '\'' :: '\'' :: '\'' :: rest := by
      refine skipFirstNewline_opening cs fun hline => ?_
      cases cs with
      | nil => exact readNewline?_of_not_control (by decide)
      | cons c cs =>
        rcases hplain c List.mem_cons_self with rfl | hcontrol
        · exact absurd List.mem_cons_self hline
        · exact readNewline?_of_not_control hcontrol
    simp only [stringChars, hform, longOpening, List.cons_append, List.append_assoc,
      List.nil_append, readString?, hopening]
    exact readLongLiteral?_append htriple hplain (by rw [List.length_append]; omega) hapostrophe

end CompanyRegistry.Toml
