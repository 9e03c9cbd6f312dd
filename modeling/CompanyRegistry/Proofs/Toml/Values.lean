import CompanyRegistry.Proofs.Text.Digits
import CompanyRegistry.Proofs.Toml.Strings
import CompanyRegistry.Toml.Document
import Mathlib.Data.Option.Basic

/-!
# TOML values, read back

Strings, truth values, numbers and arrays of strings, each read back from what the printer writes, in front
of whatever may follow a value (`EndsValue`). A number is tried as a moment and as a fraction first: it has
no mark of either.
-/

namespace CompanyRegistry.Toml

open Decimal (isDigit digits)

variable {rest : List Char} {fuel depth : Nat}

/-- What may follow a value on its line or in an array. -/
def EndsValue (rest : List Char) : Prop := ∃ c r, rest = c :: r ∧ (c = '\n' ∨ c = ',' ∨ c = ']')

/-- A text is read as a value wherever it may stand. -/
def ReadsAs (depth : Nat) (text : List Char) (v : Toml) : Prop :=
  ∀ fuel rest, text.length < fuel → EndsValue rest →
    readValue? fuel depth (text ++ rest) = some (v, rest)

/-! ### Strings -/

theorem readValue?_string {c : Char} {r s : List Char} (hc : c = '"' ∨ c = '\'')
    (h : readString? (c :: r) = some (s, rest)) :
    readValue? (fuel + 1) depth (c :: r) = some (.text (String.ofList s), rest) := by
  rw [readValue?, if_neg, if_neg, if_pos hc, h]
  · rfl
  · rcases hc with rfl | rfl <;> decide
  · rcases hc with rfl | rfl <;> decide

theorem stringChars_head (cs : List Char) :
    ∃ c r, stringChars cs = c :: r ∧ (c = '"' ∨ c = '\'') := by
  unfold stringChars
  cases formOf cs with
  | basic => exact ⟨'"', _, rfl, Or.inl rfl⟩
  | literal => exact ⟨'\'', _, rfl, Or.inr rfl⟩
  | longBasic => exact ⟨'"', _, rfl, Or.inl rfl⟩
  | longLiteral => exact ⟨'\'', _, rfl, Or.inr rfl⟩

theorem EndsValue.head?_ne (h : EndsValue rest) {q : Char} (hq : q ≠ '\n' ∧ q ≠ ',' ∧ q ≠ ']') :
    rest.head? ≠ some q := by
  obtain ⟨c, r, rfl, hc⟩ := h
  intro heq
  cases heq
  rcases hc with rfl | rfl | rfl
  · exact hq.1 rfl
  · exact hq.2.1 rfl
  · exact hq.2.2 rfl

theorem readsAs_text (depth : Nat) (s : String) : ReadsAs depth (renderText s) (.text s) := by
  intro fuel rest hfuel hrest
  obtain ⟨fuel, rfl⟩ := Nat.exists_eq_add_of_lt hfuel
  have hread : readString? (renderText s ++ rest) = some (s.toList, rest) :=
    readString?_stringChars s.toList (hrest.head?_ne (by decide)) (hrest.head?_ne (by decide))
  obtain ⟨c, r, hhead, hc⟩ := stringChars_head s.toList
  have htext : renderText s = c :: r := hhead
  rw [htext, List.cons_append] at hread ⊢
  rw [readValue?_string hc hread, String.ofList_toList]

/-! ### Truth values -/

theorem readsAs_bool (depth : Nat) (b : Bool) : ReadsAs depth (renderBool b) (.bool b) := by
  intro fuel rest hfuel hrest
  obtain ⟨fuel, rfl⟩ := Nat.exists_eq_add_of_lt hfuel
  cases b with
  | true =>
    show readValue? (_ + 1) depth ('t' :: 'r' :: 'u' :: 'e' :: rest) = _
    rw [readValue?, if_neg (by decide), if_neg (by decide), if_neg (by decide), if_pos rfl]
    simp [dropWord?]
  | false =>
    show readValue? (_ + 1) depth ('f' :: 'a' :: 'l' :: 's' :: 'e' :: rest) = _
    rw [readValue?, if_neg (by decide), if_neg (by decide), if_neg (by decide), if_neg (by decide),
      if_pos rfl]
    simp [dropWord?]

/-! ### Numbers -/

section
variable {ds : List Char}

theorem EndsValue.not_digit (h : EndsValue rest) :
    ∃ c r, rest = c :: r ∧ isDigit c = false ∧ c ≠ '_' ∧ c ≠ '.' ∧ c ≠ '-' ∧ c ≠ ':' ∧ c ≠ 'e' ∧
      c ≠ 'E' := by
  obtain ⟨c, r, rfl, hc⟩ := h
  refine ⟨c, r, rfl, ?_⟩
  rcases hc with rfl | rfl | rfl <;> decide

theorem readDigits_append (hds : ∀ c ∈ ds, isDigit c = true) (hrest : EndsValue rest)
    (behind : Bool) : readDigits isDigit behind (ds ++ rest) = (ds, rest) := by
  induction ds generalizing behind with
  | nil =>
    obtain ⟨c, r, rfl, hc, hunderscore, -⟩ := hrest.not_digit
    simp [readDigits, hc, hunderscore]
  | cons d ds ih =>
    rw [List.cons_append, readDigits, if_pos (hds d List.mem_cons_self),
      ih (fun c hc => hds c (List.mem_cons_of_mem d hc)) true]

/-- So many digits are taken from a number only if it has them. -/
theorem readFixed?_append {width n : Nat} {after : List Char}
    (hds : ∀ c ∈ ds, isDigit c = true) (hrest : EndsValue rest)
    (h : readFixed? width (ds ++ rest) = some (n, after)) :
    ∃ more, after = more ++ rest ∧ ∀ c ∈ more, isDigit c = true := by
  unfold readFixed? at h
  dsimp only at h
  split_ifs at h with hall
  cases h
  obtain ⟨hlength, hdigits⟩ := hall
  have hwidth : width ≤ ds.length := by
    by_contra hlong
    obtain ⟨c, r, rfl, hc, -⟩ := hrest.not_digit
    have hmem : c ∈ (ds ++ c :: r).take width := by
      rw [List.take_append, List.mem_append]
      right
      rw [show width - ds.length = width - ds.length - 1 + 1 by omega, List.take_succ_cons]
      exact List.mem_cons_self
    rw [List.all_eq_true.mp hdigits c hmem] at hc
    cases hc
  refine ⟨ds.drop width, List.drop_append_of_le_length hwidth, ?_⟩
  intro c hc
  exact hds c (List.mem_of_mem_drop hc)

theorem readMark?_append {mark : Char} (hmark : isDigit mark = false)
    (hds : ∀ c ∈ ds, isDigit c = true) (hrest : rest.head? ≠ some mark) :
    readMark? mark (ds ++ rest) = none := by
  cases ds with
  | nil =>
    cases rest with
    | nil => rfl
    | cons c rest =>
      have hc : c ≠ mark := fun h => hrest (congrArg some h)
      exact if_neg hc
  | cons d ds =>
    have hd : d ≠ mark := by
      rintro rfl
      rw [hds d List.mem_cons_self] at hmark
      cases hmark
    exact if_neg hd

theorem readMoment?_number (hds : ∀ c ∈ ds, isDigit c = true) (hrest : EndsValue rest) :
    readMoment? (ds ++ rest) = none := by
  have hdate : readDate? (ds ++ rest) = none := by
    unfold readDate?
    cases hyear : readFixed? 4 (ds ++ rest) with
    | none => rfl
    | some year =>
      obtain ⟨more, hafter, hmore⟩ := readFixed?_append hds hrest hyear
      have hmark : readMark? '-' year.2 = none := by
        rw [hafter]
        exact readMark?_append (by decide) hmore (hrest.head?_ne (by decide))
      simp [hmark]
  have htime : readTime? (ds ++ rest) = none := by
    unfold readTime?
    cases hhour : readFixed? 2 (ds ++ rest) with
    | none => rfl
    | some hour =>
      obtain ⟨more, hafter, hmore⟩ := readFixed?_append hds hrest hhour
      have hmark : readMark? ':' hour.2 = none := by
        rw [hafter]
        exact readMark?_append (by decide) hmore (hrest.head?_ne (by decide))
      simp [hmark]
  unfold readMoment?
  rw [hdate, htime]

theorem readSign_digit {d : Char} (hd : isDigit d = true) (r : List Char) :
    readSign (d :: r) = (false, d :: r) := by
  unfold readSign
  split
  · rename_i heq
    cases heq
    cases hd
  · rename_i heq
    cases heq
    cases hd
  · rfl

end

/-- The digits of a number are taken whole: none is a leading zero. -/
theorem readWhole?_digits (n : Nat) (hrest : EndsValue rest) :
    readWhole? (digits n ++ rest) = some (digits n, rest) := by
  have hds : ∀ c ∈ digits n, isDigit c = true := fun c => Decimal.isDigit_of_mem_digits
  unfold readWhole?
  split
  · rename_i r hzero
    by_cases hn : n = 0
    · subst hn
      have h0 : digits 0 = ['0'] := rfl
      rw [h0] at hzero ⊢
      have hr : rest = r := (List.cons.inj hzero).2
      rw [hr]
    · have hhead := Decimal.head?_digits hn
      have happend : (digits n ++ rest).head? = (digits n).head? :=
        List.head?_append_of_ne_nil _ (Decimal.digits_ne_nil n)
      rw [← happend, hzero] at hhead
      exact absurd rfl hhead
  · rw [readDigits_append hds hrest false]
    simp [Decimal.digits_ne_nil n]

theorem digits_append_head (n : Nat) (rest : List Char) :
    ∃ d r, digits n ++ rest = d :: r ∧ isDigit d = true := by
  cases hdigits : digits n with
  | nil => exact absurd hdigits (Decimal.digits_ne_nil n)
  | cons d ds =>
    refine ⟨d, ds ++ rest, rfl, Decimal.isDigit_of_mem_digits (n := n) ?_⟩
    rw [hdigits]
    exact List.mem_cons_self

theorem readSign_digits (n : Nat) (rest : List Char) :
    readSign (digits n ++ rest) = (false, digits n ++ rest) := by
  obtain ⟨d, r, hhead, hd⟩ := digits_append_head n rest
  rw [hhead]
  exact readSign_digit hd r

theorem readFloat?_digits (n : Nat) (hrest : EndsValue rest) :
    readFloat? (digits n ++ rest) = none := by
  obtain ⟨d, r, hhead, hd⟩ := digits_append_head n rest
  unfold readFloat?
  rw [readSign_digits]
  dsimp only
  split
  · rename_i heq
    rw [hhead] at heq
    cases heq
    cases hd
  · rename_i heq
    rw [hhead] at heq
    cases heq
    cases hd
  · rw [readWhole?_digits n hrest]
    obtain ⟨c, r, rfl, -, -, hpoint, -, -, he, he'⟩ := hrest.not_digit
    have hexponent : readExponent? (c :: r) = none := if_neg (by simp [he, he'])
    simp [hpoint, hexponent]

theorem readInteger?_digits {n : Nat} (hn : n < 2 ^ 63) (hrest : EndsValue rest) :
    readInteger? (digits n ++ rest) = some ((n : Int), rest) := by
  -- a zero is the whole number, so no letter of a base follows it
  have hbase : ∀ c r, c ≠ '\n' ∧ c ≠ ',' ∧ c ≠ ']' → digits n ++ rest ≠ '0' :: c :: r := by
    intro c r hends heq
    have hwhole := readWhole?_digits n hrest
    rw [heq] at hwhole
    have hafter : c :: r = rest := (Prod.mk.inj (Option.some.inj hwhole)).2
    exact hrest.head?_ne hends (by rw [← hafter]; rfl)
  unfold readInteger?
  split
  · rename_i heq
    exact absurd heq (hbase _ _ (by decide))
  · rename_i heq
    exact absurd heq (hbase _ _ (by decide))
  · rename_i heq
    exact absurd heq (hbase _ _ (by decide))
  · rw [readSign_digits]
    refine bind_of_some (readWhole?_digits n hrest) ?_
    have hbound : n < Nat.pow 2 63 := hn
    dsimp only
    rw [Decimal.ofDigits_digits]
    exact bind_of_some (guard_of_true (Or.inl hbound)) rfl

theorem readsAs_number (depth : Nat) {n : Nat} (hn : n < 2 ^ 63) :
    ReadsAs depth (digits n) (.integer n) := by
  intro fuel rest hfuel hrest
  obtain ⟨fuel, rfl⟩ := Nat.exists_eq_add_of_lt hfuel
  have hmoment : readMoment? (digits n ++ rest) = none :=
    readMoment?_number (fun c => Decimal.isDigit_of_mem_digits) hrest
  have hfloat := readFloat?_digits n hrest
  have hinteger := readInteger?_digits hn hrest
  obtain ⟨d, r, hhead, hd⟩ := digits_append_head n rest
  have hother : ∀ c, isDigit c = false → d ≠ c := by
    rintro c hc rfl
    rw [hd] at hc
    cases hc
  rw [hhead] at hmoment hfloat hinteger ⊢
  rw [readValue?, if_neg (hother _ (by decide)), if_neg (hother _ (by decide)), if_neg,
    if_neg (hother _ (by decide)), if_neg (hother _ (by decide)), hmoment, hfloat, hinteger]
  · rfl
  · rintro (rfl | rfl)
    · cases hd
    · cases hd

/-! ### Arrays -/

/-- A character that nothing is passed over for: no blank, no comment and no line end begins with it. -/
def Opens (c : Char) : Prop := isSpace c = false ∧ c ≠ '#' ∧ c ≠ '\n' ∧ c ≠ '\r'

theorem Opens.skipBlanks {c : Char} (hc : Opens c) {blanks : List Char}
    (hblanks : ∀ b ∈ blanks, isSpace b = true) (r : List Char) :
    skipComment (skipSpace (blanks ++ c :: r)) = c :: r := by
  obtain ⟨hspace, hcomment, -⟩ := hc
  have hskip : skipSpace (blanks ++ c :: r) = c :: r := by
    unfold skipSpace
    rw [List.dropWhile_append_of_pos hblanks, List.dropWhile_cons_of_neg (by simp [hspace])]
  rw [hskip]
  unfold skipComment
  split
  · rename_i heq
    exact absurd (List.cons.inj heq).1 hcomment
  · rfl

theorem Opens.skipLines_blanks {c : Char} (hc : Opens c) {blanks : List Char}
    (hblanks : ∀ b ∈ blanks, isSpace b = true) (fuel : Nat) (r : List Char) :
    skipLines (fuel + 1) (blanks ++ c :: r) = c :: r := by
  have hskip := hc.skipBlanks hblanks r
  obtain ⟨-, -, hline, hreturn⟩ := hc
  rw [skipLines, hskip]
  split
  · rename_i heq
    exact absurd (List.cons.inj heq).1 hline
  · rename_i heq
    exact absurd (List.cons.inj heq).1 hreturn
  · rfl

theorem Opens.skipLines {c : Char} (hc : Opens c) (r : List Char) :
    skipLines ((c :: r).length + 1) (c :: r) = c :: r :=
  hc.skipLines_blanks (show ∀ b ∈ [], isSpace b = true by simp) _ r

theorem Opens.skipLines_newline {c : Char} (hc : Opens c) {blanks : List Char}
    (hblanks : ∀ b ∈ blanks, isSpace b = true) (r : List Char) :
    Toml.skipLines (('\n' :: (blanks ++ c :: r)).length + 1) ('\n' :: (blanks ++ c :: r)) = c :: r :=
  hc.skipLines_blanks hblanks _ r

theorem opens_bracket : Opens ']' := ⟨by decide, by decide, by decide, by decide⟩

theorem opens_comma : Opens ',' := ⟨by decide, by decide, by decide, by decide⟩

theorem renderText_head (s : String) : ∃ c r, renderText s = c :: r ∧ Opens c ∧ c ≠ ']' := by
  obtain ⟨c, r, hhead, hc⟩ := stringChars_head s.toList
  refine ⟨c, r, hhead, ?_⟩
  rcases hc with rfl | rfl
  · exact ⟨⟨by decide, by decide, by decide, by decide⟩, by decide⟩
  · exact ⟨⟨by decide, by decide, by decide, by decide⟩, by decide⟩

section
variable {acc : List Toml} {cs : List Char}

theorem readItems?_end (h : skipLines (cs.length + 1) cs = ']' :: rest) :
    readItems? (fuel + 1) depth acc cs = some (.array acc.reverse, rest) := by
  rw [readItems?, h]
  rfl

theorem readItems?_text {s : String} {c : Char} (hc : c = ',' ∨ c = ']')
    (h : skipLines (cs.length + 1) cs = renderText s ++ c :: rest)
    (hfuel : (renderText s).length < fuel) :
    readItems? (fuel + 1) depth acc cs =
      if c = ',' then readItems? fuel depth (.text s :: acc) rest
      else some (.array (.text s :: acc).reverse, rest) := by
  have hends : EndsValue (c :: rest) := ⟨c, rest, rfl, by rcases hc with rfl | rfl <;> simp⟩
  have hread := readsAs_text depth s fuel _ hfuel hends
  obtain ⟨x, r, hhead, -, hx⟩ := renderText_head s
  rw [readItems?, h]
  rw [hhead] at hread ⊢
  split
  · rename_i heq
    exact absurd (List.cons.inj heq).1 hx
  · rw [hread]
    rcases hc with rfl | rfl
    · simp only [opens_comma.skipLines, if_true]
    · simp only [opens_bracket.skipLines]
      rfl

/-- An item of an array on a line of its own. -/
def itemLine (s : String) : List Char := "    ".toList ++ renderText s ++ [',', '\n']

theorem readItems?_lines {items : List String} (hfuel : (items.flatMap itemLine).length < fuel) :
    readItems? fuel depth acc ('\n' :: (items.flatMap itemLine ++ ']' :: rest)) =
      some (.array (acc.reverse ++ items.map .text), rest) := by
  induction items generalizing fuel acc with
  | nil =>
    obtain ⟨fuel, rfl⟩ := Nat.exists_eq_add_of_lt hfuel
    have hskip := opens_bracket.skipLines_newline (show ∀ b ∈ [], isSpace b = true by simp) rest
    rw [List.flatMap_nil, List.map_nil, List.append_nil]
    exact readItems?_end hskip
  | cons s items ih =>
    have hindent : ∀ b ∈ "    ".toList, isSpace b = true := by simp [isSpace]
    obtain ⟨c, r, hhead, hc, -⟩ := renderText_head s
    obtain ⟨fuel, rfl⟩ : ∃ n, fuel = n + 1 := ⟨fuel - 1, by omega⟩
    have hlength : (List.flatMap itemLine (s :: items)).length =
        4 + (renderText s).length + 2 + (items.flatMap itemLine).length := by
      rw [List.flatMap_cons, List.length_append, itemLine, List.length_append, List.length_append]
      rfl
    have htext : (s :: items).flatMap itemLine ++ ']' :: rest = "    ".toList ++
        c :: (r ++ ',' :: '\n' :: (items.flatMap itemLine ++ ']' :: rest)) := by
      rw [List.flatMap_cons, itemLine, hhead]
      simp only [List.append_assoc, List.cons_append, List.nil_append]
    have hskip := (hc.skipLines_newline hindent
      (r ++ ',' :: '\n' :: (items.flatMap itemLine ++ ']' :: rest))).trans
      (show c :: (r ++ _) = renderText s ++ _ by rw [hhead]; rfl)
    rw [htext, readItems?_text (Or.inl rfl) hskip (by omega), if_pos rfl, ih (by omega),
      List.reverse_cons, List.append_assoc, List.map_cons]
    rfl

end

theorem readValue?_array {r : List Char} (h : depth + 1 < maxDepth) :
    readValue? (fuel + 1) depth ('[' :: r) = readItems? fuel (depth + 1) [] r := by
  rw [readValue?, if_pos rfl, if_pos h]

theorem readsAs_texts (items : List String) :
    ReadsAs 0 (renderTexts items) (.array (items.map .text)) := by
  intro fuel rest hfuel hrest
  obtain ⟨fuel, rfl⟩ : ∃ n, fuel = n + 1 := ⟨fuel - 1, by omega⟩
  cases items with
  | nil =>
    have hskip := opens_bracket.skipLines rest
    obtain ⟨fuel, rfl⟩ : ∃ n, fuel = n + 1 := ⟨fuel - 1, by simp [renderTexts] at hfuel; omega⟩
    exact (readValue?_array (by decide)).trans (readItems?_end hskip)
  | cons s items =>
    cases items with
    | nil =>
      obtain ⟨c, r, hhead, hc, -⟩ := renderText_head s
      have hlength : (renderTexts [s]).length = (renderText s).length + 2 := by
        simp [renderTexts]
      obtain ⟨fuel, rfl⟩ : ∃ n, fuel = n + 1 := ⟨fuel - 1, by omega⟩
      have hskip : skipLines ((renderText s ++ ']' :: rest).length + 1) (renderText s ++ ']' :: rest) =
          renderText s ++ ']' :: rest := by
        rw [hhead]
        exact hc.skipLines _
      have htext : renderTexts [s] ++ rest = '[' :: (renderText s ++ ']' :: rest) := by
        simp [renderTexts]
      rw [htext, readValue?_array (by decide), readItems?_text (Or.inr rfl) hskip (by omega)]
      rfl
    | cons t items =>
      have hmany : renderTexts (s :: t :: items) =
          '[' :: '\n' :: ((s :: t :: items).flatMap itemLine ++ [']']) := rfl
      rw [hmany, List.length_cons, List.length_cons, List.length_append] at hfuel
      rw [hmany, List.cons_append, List.cons_append, List.append_assoc,
        readValue?_array (by decide)]
      exact readItems?_lines (by omega)

end CompanyRegistry.Toml
