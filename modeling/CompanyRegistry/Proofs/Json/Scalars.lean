import CompanyRegistry.Json.Reader
import CompanyRegistry.Proofs.Text.Digits

/-!
# Strings and numbers of JSON, read back

The scalars that `renderChars` writes are read back from their octets, whatever follows them
(`readString_quoted`), a number only if what follows cannot lengthen it (`readNumber?_text`).

A string is read octet by octet, so that its escapes are the only place where characters count: a
character is escaped exactly if one of its octets would be taken for something else
(`readString_escape`).
-/

namespace CompanyRegistry.Json

open Bytes

/-! ### Strings -/

variable {acc rest : Bytes} {sound : Bool}

/-- Octets that stand for themselves inside a string. -/
def IsPlain (b : UInt8) : Prop := 0x20 ≤ b ∧ b ≠ 0x22 ∧ b ≠ 0x5C

theorem readString_plain {b : UInt8} (h : IsPlain b) :
    readString acc sound (b :: rest) = readString (b :: acc) sound rest := by
  obtain ⟨hcontrol, hquote, hescape⟩ := h
  rw [readString.eq_def]
  simp only [if_neg hquote, if_neg hescape, if_neg (UInt8.not_lt.mpr hcontrol)]

theorem readString_plains {bs : Bytes} (h : ∀ b ∈ bs, IsPlain b) :
    readString acc sound (bs ++ rest) = readString (bs.reverse ++ acc) sound rest := by
  induction bs generalizing acc with
  | nil => rfl
  | cons b bs ih =>
    rw [List.cons_append, readString_plain (h b List.mem_cons_self),
      ih fun x hx => h x (List.mem_cons_of_mem b hx)]
    simp

theorem readString_short {e b : UInt8} (he : e ≠ 0x75) (h : shortEscape? e = some b) :
    readString acc sound (0x5C :: e :: rest) = readString (b :: acc) sound rest := by
  rw [readString.eq_def]
  simp [he, h]

theorem readString_unicode {a b c d : UInt8} {n : Nat} (h : hex4? a b c d = some n)
    (hn : n < 0xD800) :
    readString acc sound (0x5C :: 0x75 :: a :: b :: c :: d :: rest) =
      readString (pushChar (Char.ofNat n) acc) sound rest := by
  have hhigh : isHighSurrogate n = false := by simp [isHighSurrogate]; omega
  have hlow : isLowSurrogate n = false := by simp [isLowSurrogate]; omega
  rw [readString.eq_def]
  simp [h, hhigh, hlow]

/-- A character that needs no escape has no octet that would end or change the string. -/
theorem isPlain_of_mem_encode {c : Char} (hcontrol : ¬ c.toNat < 0x20) (hquote : c ≠ '"')
    (hescape : c ≠ '\\') {b : UInt8} (hb : b ∈ String.utf8EncodeChar c) : IsPlain b := by
  by_cases hascii : c.toNat < 0x80
  · rw [encode_ascii hascii, List.mem_singleton] at hb
    have hnat : b.toNat = c.toNat := by
      rw [hb, UInt8.toNat_ofNat_of_lt' (Nat.lt_trans hascii (by decide))]
    refine ⟨?_, ?_, ?_⟩
    · rw [UInt8.le_iff_toNat_le, hnat]
      exact Nat.not_lt.mp hcontrol
    · rintro rfl
      exact hquote (Char.toNat_inj.mp hnat.symm)
    · rintro rfl
      exact hescape (Char.toNat_inj.mp hnat.symm)
  · have hhigh := le_of_mem_encode (Nat.not_lt.mp hascii) hb
    refine ⟨UInt8.le_trans (by decide) hhigh, ?_, ?_⟩
    · rintro rfl
      exact absurd hhigh (by decide)
    · rintro rfl
      exact absurd hhigh (by decide)

theorem hexOctet?_hexDigit : ∀ n : Fin 16,
    String.utf8EncodeChar (hexDigit n) = [UInt8.ofNat (hexDigit n).toNat] ∧
      hexOctet? (UInt8.ofNat (hexDigit n).toNat) = some n.val := by
  decide

theorem readString_unicodeEscape {c : Char} (h : c.toNat < 0x20) :
    readString acc sound (ofChars (unicodeEscape c) ++ rest) =
      readString ((String.utf8EncodeChar c).reverse ++ acc) sound rest := by
  obtain ⟨hhigh, hhigh'⟩ := hexOctet?_hexDigit ⟨c.toNat / 16, by omega⟩
  obtain ⟨hlow, hlow'⟩ := hexOctet?_hexDigit ⟨c.toNat % 16, by omega⟩
  have hzero : hexOctet? 0x30 = some 0 := by decide
  have hnumber : hex4? 0x30 0x30 (UInt8.ofNat (hexDigit (c.toNat / 16)).toNat)
      (UInt8.ofNat (hexDigit (c.toNat % 16)).toNat) = some c.toNat := by
    simp only [hex4?, hzero, hhigh', hlow', Option.bind_eq_bind, Option.bind_some]
    exact congrArg some (by omega)
  have hoctets : ofChars (unicodeEscape c) ++ rest = 0x5C :: 0x75 :: 0x30 :: 0x30 ::
      UInt8.ofNat (hexDigit (c.toNat / 16)).toNat :: UInt8.ofNat (hexDigit (c.toNat % 16)).toNat ::
        rest := by
    simp only [unicodeEscape, ofChars_cons, hhigh, hlow]
    rfl
  rw [hoctets, readString_unicode hnumber (by omega), pushChar, Char.ofNat_toNat]

theorem readString_escape (c : Char) :
    readString acc sound (ofChars (escape c) ++ rest) =
      readString ((String.utf8EncodeChar c).reverse ++ acc) sound rest := by
  unfold escape
  split_ifs with hquote hescape hb hf hn hr ht hcontrol
  · rw [hquote]
    exact readString_short (by decide) rfl
  · rw [hescape]
    exact readString_short (by decide) rfl
  · rw [hb]
    exact readString_short (by decide) rfl
  · rw [hf]
    exact readString_short (by decide) rfl
  · rw [hn]
    exact readString_short (by decide) rfl
  · rw [hr]
    exact readString_short (by decide) rfl
  · rw [ht]
    exact readString_short (by decide) rfl
  · exact readString_unicodeEscape hcontrol
  · rw [ofChars_cons, ofChars_nil, List.append_nil]
    exact readString_plains fun b => isPlain_of_mem_encode hcontrol hquote hescape

theorem readString_escaped (cs : List Char) :
    readString acc sound (ofChars (cs.flatMap escape) ++ 0x22 :: rest) =
      some ((ofChars cs).reverse ++ acc, sound, rest) := by
  induction cs generalizing acc with
  | nil =>
    rw [List.flatMap_nil, ofChars_nil, List.nil_append, readString.eq_def]
    rfl
  | cons c cs ih =>
    rw [List.flatMap_cons, ofChars_append, List.append_assoc, readString_escape, ih]
    simp

/-! ### Numbers -/

/-- What follows cannot lengthen a number before it. -/
def EndsNumber (rest : Bytes) : Prop :=
  ∀ b ∈ rest.head?, isDigit b = false ∧ b ≠ 0x2E ∧ b ≠ 0x65 ∧ b ≠ 0x45

theorem endsNumber_nil : EndsNumber [] := by
  intro b hb
  cases hb

theorem readFraction?_of_endsNumber (h : EndsNumber rest) : readFraction? rest = some ([], rest) := by
  cases rest with
  | nil => rfl
  | cons b rest =>
    obtain ⟨-, hpoint, -⟩ := h b rfl
    rw [readFraction?.eq_def]
    split
    · rename_i heq
      exact absurd (List.cons.inj heq).1 hpoint
    · rfl

theorem takeWhile_digits {ds : Bytes} (hds : ∀ b ∈ ds, isDigit b = true) (h : EndsNumber rest) :
    (ds ++ rest).takeWhile isDigit = ds ∧ (ds ++ rest).dropWhile isDigit = rest := by
  rw [List.takeWhile_append_of_pos hds, List.dropWhile_append_of_pos hds]
  cases rest with
  | nil => simp
  | cons b rest =>
    obtain ⟨hdigit, -⟩ := h b rfl
    simp [hdigit]

/-- The octets before the digits of a number. -/
def signOctets (negative : Bool) : Bytes := if negative then [0x2D] else []

theorem readNumber?_digits (negative : Bool) {ds : Bytes} (hds : ∀ b ∈ ds, isDigit b = true)
    (hne : ds ≠ []) (hzero : ¬ (ds.length > 1 ∧ ds.head? = some 0x30)) (h : EndsNumber rest) :
    readNumber? (signOctets negative ++ (ds ++ rest)) =
      some (numberOf negative ds [] none, rest) := by
  obtain ⟨htake, hdrop⟩ := takeWhile_digits hds h
  unfold readNumber?
  split
  rename_i negative' s hsign
  have hsigned : negative' = negative ∧ s = ds ++ rest := by
    cases negative with
    | true => simpa [signOctets, eq_comm] using hsign
    | false =>
      cases ds with
      | nil => exact absurd rfl hne
      | cons b ds =>
        have hb : b ≠ 0x2D := by
          rintro rfl
          exact absurd (hds _ List.mem_cons_self) (by decide)
        simp only [signOctets, Bool.false_eq_true, if_false, List.nil_append,
          List.cons_append] at hsign
        split at hsign
        · rename_i heq
          exact absurd (List.cons.inj heq).1 hb
        · simpa [eq_comm] using hsign
  rw [hsigned.1, hsigned.2]
  simp only [htake, hdrop, hne, hzero, false_or, if_false, readFraction?_of_endsNumber h]
  cases rest with
  | nil => rfl
  | cons b rest =>
    obtain ⟨-, -, hsmall, hlarge⟩ := h b rfl
    simp [hsmall, hlarge]

/-! ### The octets of digits -/

variable {ds : List Char}

theorem ofChars_digits (h : ∀ c ∈ ds, Decimal.isDigit c = true) :
    ofChars ds = ds.map fun c => UInt8.ofNat c.toNat := by
  induction ds with
  | nil => rfl
  | cons c ds ih =>
    have hc := Decimal.isDigit_iff.mp (h c List.mem_cons_self)
    rw [ofChars_cons, encode_ascii (by omega), ih fun d hd => h d (List.mem_cons_of_mem c hd)]
    rfl

theorem toNat_digitOctet {c : Char} (h : Decimal.isDigit c = true) :
    (UInt8.ofNat c.toNat).toNat = c.toNat := by
  have hc := Decimal.isDigit_iff.mp h
  exact UInt8.toNat_ofNat_of_lt' (Nat.lt_of_le_of_lt hc.2 (by decide))

theorem isDigit_of_mem_ofChars (h : ∀ c ∈ ds, Decimal.isDigit c = true) {b : UInt8}
    (hb : b ∈ ofChars ds) : isDigit b = true := by
  rw [ofChars_digits h] at hb
  obtain ⟨c, hc, rfl⟩ := List.mem_map.mp hb
  have hdigit := Decimal.isDigit_iff.mp (h c hc)
  simp only [isDigit, Bool.and_eq_true, decide_eq_true_eq, UInt8.le_iff_toNat_le,
    toNat_digitOctet (h c hc)]
  exact hdigit

theorem digitsValue_ofChars (h : ∀ c ∈ ds, Decimal.isDigit c = true) :
    digitsValue (ofChars ds) = Decimal.ofDigits ds := by
  rw [ofChars_digits h, digitsValue, Decimal.ofDigits, Nat.ofDigitChars_eq_foldl, List.foldl_map]
  generalize 0 = n
  induction ds generalizing n with
  | nil => rfl
  | cons c ds ih =>
    rw [List.foldl_cons, List.foldl_cons, toNat_digitOctet (h c List.mem_cons_self),
      Nat.mul_comm n 10]
    exact ih (fun d hd => h d (List.mem_cons_of_mem c hd)) _

/-- The digits of a number, after a sign or none, are read to their end. -/
theorem readNumber?_signed (negative : Bool) (n : Nat) (h : EndsNumber rest) :
    readNumber? (signOctets negative ++ (ofChars (Decimal.digits n) ++ rest)) =
      some (numberOf negative (ofChars (Decimal.digits n)) [] none, rest) := by
  have hdigits : ∀ c ∈ Decimal.digits n, Decimal.isDigit c = true :=
    fun c => Decimal.isDigit_of_mem_digits
  have hoctets := ofChars_digits hdigits
  apply readNumber?_digits negative (fun b => isDigit_of_mem_ofChars hdigits) _ _ h
  · rw [hoctets]
    simpa using Decimal.digits_ne_nil n
  · rintro ⟨hlong, hzero⟩
    have hn : n ≠ 0 := by
      rintro rfl
      exact absurd hlong (by decide)
    rw [hoctets, List.head?_map, Option.map_eq_some_iff] at hzero
    obtain ⟨c, hc, heq⟩ := hzero
    have hnat := congrArg UInt8.toNat heq
    rw [toNat_digitOctet (hdigits c (List.mem_of_head? hc))] at hnat
    have hzero' : c = '0' := Char.toNat_inj.mp hnat
    exact Decimal.head?_digits hn (hzero' ▸ hc)

theorem digitsValue_digits (n : Nat) : digitsValue (ofChars (Decimal.digits n)) = n := by
  rw [digitsValue_ofChars fun c => Decimal.isDigit_of_mem_digits, Decimal.ofDigits_digits]

theorem readNumber?_text {i : Int} (hlow : -2 ^ 63 ≤ i) (hhigh : i < 2 ^ 64)
    (h : EndsNumber rest) :
    readNumber? (ofChars (Decimal.text i) ++ rest) = some (.whole i, rest) := by
  cases i with
  | ofNat n =>
    have hn : n < Nat.pow 2 64 := Int.ofNat_lt.mp hhigh
    have hnumber : numberOf false (ofChars (Decimal.digits n)) [] none = .whole (n : Int) := by
      simp [numberOf, digitsValue_digits, hn]
    have hread := readNumber?_signed false n h
    rwa [hnumber] at hread
  | negSucc n =>
    have hn : n + 1 ≤ Nat.pow 2 63 := by
      have hpow : Nat.pow 2 63 = 2 ^ 63 := rfl
      omega
    have hnumber : numberOf true (ofChars (Decimal.digits (n + 1))) [] none =
        .whole (Int.negSucc n) := by
      simp [numberOf, digitsValue_digits, hn, Int.negSucc_eq]
    have hread := readNumber?_signed true (n + 1) h
    rwa [hnumber] at hread

end CompanyRegistry.Json
