import CompanyRegistry.Company.Id
import CompanyRegistry.Proofs.Text.Blanks
import CompanyRegistry.Proofs.Text.Octets
import Mathlib.Algebra.GroupWithZero.Nat

/-!
# The spellings of an identifier

A text denotes an identifier if, blanks aside, it spells the identifier's octets with two hexadecimal digits
each: bare, in five groups, in five groups and braces, or in five groups behind `urn:uuid:` (`Id.Spells`).
`Id.parse` accepts these texts and no others (`Id.parse_eq_ok_iff`), each for the identifier it spells. Among
them is the one that an identifier is written in (`Id.parse_text`), in small letters and with hyphens.
-/

namespace CompanyRegistry

/-- A character is ASCII and no blank. -/
def Text.IsPlain (c : Char) : Prop := c.toNat < 0x80 ∧ isBlank c = false

instance (c : Char) : Decidable (Text.IsPlain c) := by
  unfold Text.IsPlain; infer_instance

namespace Bytes

/-! ### Digits -/

/-- A character is the hexadecimal digit of a number, small or capital. -/
def IsHex (c : Char) (n : Nat) : Prop :=
  "0123456789abcdef".toList[n]? = some c ∨ "0123456789ABCDEF".toList[n]? = some c

instance (c : Char) (n : Nat) : Decidable (IsHex c n) := by
  unfold IsHex; infer_instance

/-- Characters spell octets, two hexadecimal digits for each. -/
inductive HexSpells : List Char → Bytes → Prop
  | nil : HexSpells [] []
  | cons {c d : Char} {x y : Nat} {cs : List Char} {b : Bytes} (hc : IsHex c x) (hd : IsHex d y)
      (hcs : HexSpells cs b) : HexSpells (c :: d :: cs) (UInt8.ofNat (x * 16 + y) :: b)

/-- What holds of each ASCII character holds of any that is ASCII. -/
theorem forall_ascii (P : Char → Prop) (h : ∀ k : Fin 0x80, P (Char.ofNat k)) {c : Char}
    (hc : c.toNat < 0x80) : P c := by
  have hP := h ⟨c.toNat, hc⟩
  rwa [Char.ofNat_toNat] at hP

theorem hexValue?_eq_some_iff {c : Char} {n : Nat} : hexValue? c = some n ↔ IsHex c n := by
  constructor
  · intro h
    -- beyond ASCII there is no digit, and within it the characters are tried one by one
    have hascii : c.toNat < 0x80 := by
      simp only [hexValue?, Char.reduceToNat] at h
      split_ifs at h <;> omega
    exact forall_ascii (fun c => ∀ n ∈ hexValue? c, IsHex c n) (by decide) hascii n h
  · rintro (h | h)
    · obtain ⟨hn, rfl⟩ := List.getElem?_eq_some_iff.mp h
      have hall : ∀ k : Fin 16, hexValue? ("0123456789abcdef".toList[k]) = some k.val := by decide
      exact hall ⟨n, hn⟩
    · obtain ⟨hn, rfl⟩ := List.getElem?_eq_some_iff.mp h
      have hall : ∀ k : Fin 16, hexValue? ("0123456789ABCDEF".toList[k]) = some k.val := by decide
      exact hall ⟨n, hn⟩

theorem ofHexChars?_eq_some_iff {cs : List Char} {b : Bytes} :
    ofHexChars? cs = some b ↔ HexSpells cs b := by
  constructor
  · intro h
    induction cs using ofHexChars?.induct generalizing b with
    | case1 =>
      cases h
      exact .nil
    | case2 c => cases h
    | case3 c d cs ih =>
      simp only [ofHexChars?, Option.bind_eq_bind, Option.bind_eq_some_iff, Option.pure_def] at h
      obtain ⟨x, hx, y, hy, tail, htail, hb⟩ := h
      cases hb
      exact .cons (hexValue?_eq_some_iff.mp hx) (hexValue?_eq_some_iff.mp hy) (ih htail)
  · intro h
    induction h with
    | nil => rfl
    | cons hc hd hcs ih =>
      simp [ofHexChars?, hexValue?_eq_some_iff.mpr hc, hexValue?_eq_some_iff.mpr hd, ih]

theorem HexSpells.length {cs : List Char} {b : Bytes} (h : HexSpells cs b) :
    cs.length = 2 * b.length := by
  induction h with
  | nil => rfl
  | cons hc hd hcs ih =>
    simp only [List.length_cons, ih]
    omega

theorem IsHex.plain {c : Char} {n : Nat} (h : IsHex c n) : Text.IsPlain c := by
  have hlow : ∀ k : Fin 16, Text.IsPlain ("0123456789abcdef".toList[k]) := by decide
  have hhigh : ∀ k : Fin 16, Text.IsPlain ("0123456789ABCDEF".toList[k]) := by decide
  rcases h with h | h
  · obtain ⟨hn, rfl⟩ := List.getElem?_eq_some_iff.mp h
    exact hlow ⟨n, hn⟩
  · obtain ⟨hn, rfl⟩ := List.getElem?_eq_some_iff.mp h
    exact hhigh ⟨n, hn⟩

theorem HexSpells.plain {cs : List Char} {b : Bytes} (h : HexSpells cs b) :
    ∀ c ∈ cs, Text.IsPlain c := by
  induction h with
  | nil => simp
  | cons hc hd hcs ih =>
    intro c hmem
    rcases List.mem_cons.mp hmem with rfl | hmem
    · exact hc.plain
    · rcases List.mem_cons.mp hmem with rfl | hmem
      · exact hd.plain
      · exact ih c hmem

end Bytes

namespace Company.Id

open Bytes (HexSpells)

variable {i : Id} {cs ds : List Char}

/-! ### The four forms -/

/-- Thirty-two digits in groups of 8, 4, 4, 4 and 12, hyphens between. -/
def Hyphenated (ds cs : List Char) : Prop :=
  ∃ a b c d e : List Char,
    a.length = 8 ∧ b.length = 4 ∧ c.length = 4 ∧ d.length = 4 ∧ e.length = 12 ∧
    ds = a ++ (b ++ (c ++ (d ++ e))) ∧
    cs = a ++ '-' :: (b ++ '-' :: (c ++ '-' :: (d ++ '-' :: e)))

/-- Characters spell an identifier in one of the four forms. -/
inductive Spells (i : Id) : List Char → Prop
  | bare {ds : List Char} (hds : HexSpells ds i.octets) : Spells i ds
  | grouped {ds cs : List Char} (hds : HexSpells ds i.octets) (hcs : Hyphenated ds cs) : Spells i cs
  | braced {ds cs : List Char} (hds : HexSpells ds i.octets) (hcs : Hyphenated ds cs) :
      Spells i ('\x7b' :: (cs ++ ['\x7d']))
  | urn {ds cs p : List Char} (hds : HexSpells ds i.octets) (hcs : Hyphenated ds cs)
      (hp : p.map Char.toLower = "urn:uuid:".toList) : Spells i (p ++ cs)

theorem hyphenated_iff : Hyphenated ds cs ↔ ds.length = 32 ∧ cs = grouped groupLengths ds := by
  constructor
  · rintro ⟨a, b, c, d, e, ha, hb, hc, hd, he, rfl, rfl⟩
    refine ⟨by simp [ha, hb, hc, hd, he], ?_⟩
    simp only [groupLengths, grouped, List.take_left' ha, List.drop_left' ha, List.take_left' hb,
      List.drop_left' hb, List.take_left' hc, List.drop_left' hc, List.take_left' hd,
      List.drop_left' hd]
  · rintro ⟨hlength, rfl⟩
    refine ⟨ds.take 8, (ds.drop 8).take 4, ((ds.drop 8).drop 4).take 4,
      (((ds.drop 8).drop 4).drop 4).take 4, (((ds.drop 8).drop 4).drop 4).drop 4, ?_, ?_, ?_, ?_,
      ?_, ?_, rfl⟩
    · simp [hlength]
    · simp [hlength]
    · simp [hlength]
    · simp [hlength]
    · simp [hlength]
    · simp only [List.take_append_drop]

theorem ungroup?_grouped {ns : List Nat} {cs : List Char} (h : ns.sum ≤ cs.length) :
    ungroup? ns (grouped ns cs) = some cs := by
  induction ns generalizing cs with
  | nil => rfl
  | cons n ns ih =>
    rw [List.sum_cons] at h
    have hlength : (cs.take n).length = n := List.length_take_of_le (by omega)
    have hrest : ungroup? ns (grouped ns (cs.drop n)) = some (cs.drop n) :=
      ih (by rw [List.length_drop]; omega)
    rw [grouped, ungroup?, List.drop_left' hlength, List.take_left' hlength]
    simp only [hrest, Option.map_some, List.take_append_drop]

theorem mem_grouped {ns : List Nat} {cs : List Char} {c : Char} (h : c ∈ grouped ns cs) :
    c = '-' ∨ c ∈ cs := by
  induction ns generalizing cs with
  | nil => exact Or.inr h
  | cons n ns ih =>
    rcases List.mem_append.mp h with h | h
    · exact Or.inr (List.mem_of_mem_take h)
    · rcases List.mem_cons.mp h with h | h
      · exact Or.inl h
      · exact (ih h).imp_right List.mem_of_mem_drop

/-- The digits of a grouped text, read back from it. -/
theorem ungroup?_eq_some_iff {ns : List Nat} :
    ungroup? ns cs = some ds ↔ ns.sum ≤ ds.length ∧ cs = grouped ns ds := by
  constructor
  · intro h
    induction ns generalizing cs ds with
    | nil =>
      cases h
      exact ⟨Nat.zero_le _, rfl⟩
    | cons n ns ih =>
      rw [ungroup?] at h
      split at h
      · next rest hrest =>
        obtain ⟨tail, htail, rfl⟩ := Option.map_eq_some_iff.mp h
        obtain ⟨hsum, rfl⟩ := ih htail
        have hlong : n ≤ cs.length := by
          have hpositive := congrArg List.length hrest
          rw [List.length_drop, List.length_cons] at hpositive
          omega
        have htake : (cs.take n).length = n := List.length_take_of_le hlong
        refine ⟨?_, ?_⟩
        · rw [List.sum_cons, List.length_append, htake]
          omega
        · rw [grouped, List.take_left' htake, List.drop_left' htake, ← hrest, List.take_append_drop]
      · cases h
  · rintro ⟨hsum, rfl⟩
    exact ungroup?_grouped hsum

theorem ofDigits?_eq_some_iff : ofDigits? cs = some i ↔ HexSpells cs i.octets := by
  rw [← Bytes.ofHexChars?_eq_some_iff, ofDigits?]
  constructor
  · intro h
    split at h
    · next octets hoctets =>
      split_ifs at h with hsixteen
      cases h
      exact hoctets
    · cases h
  · intro h
    rw [h]
    exact dif_pos i.sixteen

theorem ofGrouped?_eq_some_iff :
    ofGrouped? cs = some i ↔ ∃ ds, HexSpells ds i.octets ∧ Hyphenated ds cs := by
  simp only [ofGrouped?, Option.bind_eq_bind, Option.bind_eq_some_iff, ofDigits?_eq_some_iff,
    ungroup?_eq_some_iff, hyphenated_iff]
  constructor
  · rintro ⟨ds, ⟨-, hcs⟩, hds⟩
    refine ⟨ds, hds, ?_, hcs⟩
    rw [hds.length, i.sixteen]
  · rintro ⟨ds, hds, hlength, hcs⟩
    refine ⟨ds, ⟨?_, hcs⟩, hds⟩
    rw [hlength]
    decide

theorem insideBraces?_eq_some_iff :
    insideBraces? cs = some ds ↔ cs = '\x7b' :: (ds ++ ['\x7d']) := by
  constructor
  · intro h
    unfold insideBraces? at h
    split at h
    · next rest =>
      split at h
      · next inner hreverse =>
        cases h
        rw [← List.reverse_reverse rest, hreverse, List.reverse_cons]
      · cases h
    · cases h
  · rintro rfl
    simp [insideBraces?]

theorem length_of_prefix {p : List Char} (hp : p.map Char.toLower = "urn:uuid:".toList) :
    p.length = 9 := by
  have hlengths := congrArg List.length hp
  rwa [List.length_map] at hlengths

theorem behindPrefix?_eq_some_iff :
    behindPrefix? cs = some ds ↔
      ∃ p : List Char, p.map Char.toLower = "urn:uuid:".toList ∧ cs = p ++ ds := by
  constructor
  · intro h
    unfold behindPrefix? at h
    split_ifs at h with hprefix
    cases h
    exact ⟨cs.take 9, hprefix, (List.take_append_drop 9 cs).symm⟩
  · rintro ⟨p, hp, rfl⟩
    have hlength := length_of_prefix hp
    rw [behindPrefix?, List.take_left' hlength, List.drop_left' hlength]
    exact if_pos hp

/-! ### Their characters -/

theorem Hyphenated.mem {c : Char} (h : Hyphenated ds cs) (hc : c ∈ cs) : c = '-' ∨ c ∈ ds := by
  obtain ⟨-, rfl⟩ := hyphenated_iff.mp h
  exact mem_grouped hc

theorem Hyphenated.length (h : Hyphenated ds cs) : cs.length = 36 := by
  obtain ⟨a, b, c, d, e, ha, hb, hc, hd, he, -, rfl⟩ := h
  simp [ha, hb, hc, hd, he]

theorem Hyphenated.plain (hds : ∀ c ∈ ds, Text.IsPlain c) (h : Hyphenated ds cs) :
    ∀ c ∈ cs, Text.IsPlain c := by
  intro c hc
  rcases h.mem hc with rfl | hc
  · decide
  · exact hds c hc

/-- A character of the prefix, in whatever case, is ASCII and no blank. -/
theorem plain_of_toLower {c : Char} (h : c.toLower ∈ "urn:uuid:".toList) : Text.IsPlain c := by
  have hascii : c.toNat < 0x80 := by
    by_contra hbig
    have hsame : c.toLower = c := by
      refine dif_neg ?_
      rintro ⟨-, hcapital⟩
      exact hbig (Nat.lt_of_le_of_lt (UInt32.le_iff_toNat_le.mp hcapital) (by decide))
    rw [hsame] at h
    have hall : ("urn:uuid:".toList.all fun c => decide (c.toNat < 0x80)) = true := by decide
    exact hbig (of_decide_eq_true (List.all_eq_true.mp hall c h))
  have hblank := Bytes.forall_ascii
    (fun c => c.toLower ∈ "urn:uuid:".toList → Text.isBlank c = false) (by decide) hascii
  exact ⟨hascii, hblank h⟩

theorem Spells.plain (h : Spells i cs) : ∀ c ∈ cs, Text.IsPlain c := by
  cases h with
  | bare hds => exact hds.plain
  | grouped hds hcs => exact hcs.plain hds.plain
  | braced hds hcs =>
    intro c hc
    rcases List.mem_cons.mp hc with rfl | hc
    · decide
    · rcases List.mem_append.mp hc with hc | hc
      · exact hcs.plain hds.plain c hc
      · obtain rfl := List.mem_singleton.mp hc
        decide
  | urn hds hcs hp =>
    intro c hc
    rcases List.mem_append.mp hc with hc | hc
    · apply plain_of_toLower
      rw [← hp]
      exact List.mem_map_of_mem hc
    · exact hcs.plain hds.plain c hc

theorem octetCount_ascii {cs : List Char} (h : ∀ c ∈ cs, c.toNat < 0x80) :
    octetCount cs = cs.length := by
  have hfold : ∀ n, cs.foldl (fun n c => n + c.utf8Size) n = n + cs.length := by
    induction cs with
    | nil => exact fun n => rfl
    | cons c cs ih =>
      intro n
      have hsize : c.utf8Size = 1 := if_pos (Nat.le_of_lt_succ (h c List.mem_cons_self))
      rw [List.foldl_cons, hsize, ih (fun d hd => h d (List.mem_cons_of_mem c hd)),
        List.length_cons]
      omega
  rw [octetCount, hfold, Nat.zero_add]

theorem Spells.octetCount (h : Spells i cs) : Id.octetCount cs = cs.length :=
  octetCount_ascii fun c hc => (h.plain c hc).1

/-! ### Reading them -/

theorem ofChars?_of_spells (h : Spells i cs) : ofChars? cs = some i := by
  have hcount := h.octetCount
  cases h with
  | bare hds =>
    have hunwrap : unwrap? cs = none := by
      rw [hds.length, i.sixteen] at hcount
      simp [unwrap?, hcount]
    rw [ofChars?, hunwrap]
    exact ofDigits?_eq_some_iff.mpr hds
  | grouped hds hcs =>
    have hunwrap : unwrap? cs = some cs := by
      rw [hcs.length] at hcount
      simp [unwrap?, hcount]
    rw [ofChars?, hunwrap]
    exact ofGrouped?_eq_some_iff.mpr ⟨_, hds, hcs⟩
  | @braced ds cs hds hcs =>
    have hunwrap : unwrap? ('\x7b' :: (cs ++ ['\x7d'])) = some cs := by
      rw [List.length_cons, List.length_append, hcs.length] at hcount
      simp [unwrap?, hcount, insideBraces?_eq_some_iff]
    rw [ofChars?, hunwrap]
    exact ofGrouped?_eq_some_iff.mpr ⟨ds, hds, hcs⟩
  | @urn ds cs p hds hcs hp =>
    have hunwrap : unwrap? (p ++ cs) = some cs := by
      rw [List.length_append, length_of_prefix hp, hcs.length] at hcount
      simp only [unwrap?, hcount, Nat.reduceAdd, Nat.reduceEqDiff, if_false, if_true]
      exact behindPrefix?_eq_some_iff.mpr ⟨p, hp, rfl⟩
    rw [ofChars?, hunwrap]
    exact ofGrouped?_eq_some_iff.mpr ⟨ds, hds, hcs⟩

theorem spells_of_ofChars? (h : ofChars? cs = some i) : Spells i cs := by
  rw [ofChars?] at h
  split at h
  · next inner hunwrap =>
    obtain ⟨ds, hds, hinner⟩ := ofGrouped?_eq_some_iff.mp h
    simp only [unwrap?] at hunwrap
    split_ifs at hunwrap
    · cases hunwrap
      exact .grouped hds hinner
    · obtain rfl := insideBraces?_eq_some_iff.mp hunwrap
      exact .braced hds hinner
    · obtain ⟨p, hp, rfl⟩ := behindPrefix?_eq_some_iff.mp hunwrap
      exact .urn hds hinner hp
  · exact .bare (ofDigits?_eq_some_iff.mp h)

theorem ofChars?_eq_some_iff : ofChars? cs = some i ↔ Spells i cs :=
  ⟨spells_of_ofChars?, ofChars?_of_spells⟩

/-- **The accepted texts**: blanks around one of the four forms, and the identifier is the one that the
digits spell. -/
theorem parse_eq_ok_iff {s : String} :
    parse s = .ok i ↔ ∃ before core after : List Char,
      (∀ c ∈ before, Text.isBlank c = true) ∧ (∀ c ∈ after, Text.isBlank c = true) ∧
      s.toList = before ++ (core ++ after) ∧ Spells i core := by
  have hparse : parse s = .ok i ↔ ofChars? (Text.trim s.toList) = some i := by
    simp only [parse]
    split
    · next j hj => simp [hj]
    · next hnone => simp [hnone]
  rw [hparse, ofChars?_eq_some_iff]
  constructor
  · intro h
    obtain ⟨before, after, hbefore, hafter, htext⟩ := Text.exists_trim s.toList
    exact ⟨before, _, after, hbefore, hafter, htext, h⟩
  · rintro ⟨before, core, after, hbefore, hafter, htext, h⟩
    rw [htext, Text.trim_padded hbefore hafter fun c hc => (h.plain c hc).2]
    exact h

/-! ### The written form -/

theorem hexSpells_hexChars (b : Bytes) : HexSpells (Bytes.hexChars b) b :=
  Bytes.ofHexChars?_eq_some_iff.mp (Bytes.ofHexChars?_hexChars b)

theorem length_hexChars_octets (i : Id) : (Bytes.hexChars i.octets).length = 32 := by
  rw [Bytes.length_hexChars, i.sixteen]

theorem hyphenated_textChars (i : Id) : Hyphenated (Bytes.hexChars i.octets) i.textChars :=
  hyphenated_iff.mpr ⟨i.length_hexChars_octets, rfl⟩

/-- An identifier is written with digits and hyphens. -/
theorem mem_textChars {c : Char} (h : c ∈ i.textChars) :
    c = '-' ∨ ∃ n : Fin 16, c = Bytes.hexDigit n := by
  rcases mem_grouped h with hhyphen | hdigit
  · exact Or.inl hhyphen
  · exact Or.inr (Bytes.exists_of_mem_hexChars hdigit)

/-- What holds of the hyphen and of every digit holds of each character of an identifier. -/
theorem forall_textChars {P : Char → Prop} (hhyphen : P '-')
    (hdigit : ∀ n : Fin 16, P (Bytes.hexDigit n)) (i : Id) : ∀ c ∈ i.textChars, P c := by
  intro c hc
  rcases mem_textChars hc with rfl | ⟨n, rfl⟩
  · exact hhyphen
  · exact hdigit n

theorem spells_textChars (i : Id) : Spells i i.textChars :=
  .grouped (hexSpells_hexChars i.octets) i.hyphenated_textChars

theorem length_textChars (i : Id) : i.textChars.length = 36 := i.hyphenated_textChars.length

theorem ofText?_text (i : Id) : ofText? i.text = some i := by
  rw [ofText?, text, String.toList_ofList]
  exact ofChars?_of_spells i.spells_textChars

theorem parse_text (i : Id) : parse i.text = .ok i := by
  have hnone : ∀ c ∈ ([] : List Char), Text.isBlank c = true := by simp
  refine parse_eq_ok_iff.mpr ⟨[], i.textChars, [], hnone, hnone, ?_, i.spells_textChars⟩
  rw [text, String.toList_ofList, List.nil_append, List.append_nil]

end Company.Id

end CompanyRegistry
