import CompanyRegistry.Proofs.Text.Octets
import CompanyRegistry.Text.Base64
import Mathlib.Data.Option.Basic

/-!
# Base64, read back

Octets are read back from their text (`decode?_encode`), and under a rule that leaves no choice about the
padding a text that is read is the one that its octets are written with (`decode?_eq_some_iff`). So the
bits that no octet needs, which could give one list of octets several texts, are never free.

Both directions go through the six-bit numbers between octets and digits, three octets and four numbers
at a time.
-/

namespace CompanyRegistry.Base64

variable {a : Alphabet}

/-! ### Digits -/

/-- Every digit of the alphabet is read as its number, and the padding character is no digit. -/
structure Alphabet.Proper (a : Alphabet) : Prop where
  value?_digit : ∀ n : Fin 64, a.value? (a.digit n) = some n.val
  value?_pad : a.value? '=' = none

theorem urlSafe_proper : urlSafe.Proper := ⟨by decide, by decide⟩

theorem Alphabet.digit_of_value? {c : Char} {n : Nat} (h : a.value? c = some n) :
    n < 64 ∧ a.digit n = c := by
  have hchar : Char.ofNat c.toNat = c := Char.ofNat_toNat c
  have hA : 'A'.toNat = 65 := rfl
  have hZ : 'Z'.toNat = 90 := rfl
  have ha : 'a'.toNat = 97 := rfl
  have hz : 'z'.toNat = 122 := rfl
  have h0 : '0'.toNat = 48 := rfl
  have h9 : '9'.toNat = 57 := rfl
  unfold value? at h
  simp only [hA, hZ, ha, hz, h0, h9] at h
  unfold digit
  simp only [hA, ha, h0]
  split_ifs at h with hupper hlower hdigit h62 h63
  · cases h
    rw [if_pos (by omega), show 65 + (c.toNat - 65) = c.toNat by omega]
    exact ⟨by omega, hchar⟩
  · cases h
    rw [if_neg (by omega), if_pos (by omega),
      show 97 + (c.toNat - 97 + 26 - 26) = c.toNat by omega]
    exact ⟨by omega, hchar⟩
  · cases h
    rw [if_neg (by omega), if_neg (by omega), if_pos (by omega),
      show 48 + (c.toNat - 48 + 52 - 52) = c.toNat by omega]
    exact ⟨by omega, hchar⟩
  · cases h
    exact ⟨by decide, h62.symm⟩
  · cases h
    exact ⟨by decide, h63.symm⟩

theorem Alphabet.Proper.digit_ne_pad (ha : a.Proper) {n : Nat} (h : n < 64) : a.digit n ≠ '=' := by
  intro hpad
  have hvalue := ha.value?_digit ⟨n, h⟩
  rw [hpad, ha.value?_pad] at hvalue
  cases hvalue

theorem Alphabet.Proper.mapM_digit (ha : a.Proper) {ns : List Nat} (h : ∀ n ∈ ns, n < 64) :
    (ns.map a.digit).mapM a.value? = some ns := by
  induction ns with
  | nil => rfl
  | cons n ns ih =>
    rw [List.map_cons, List.mapM_cons, ha.value?_digit ⟨n, h n List.mem_cons_self⟩,
      ih fun m hm => h m (List.mem_cons_of_mem n hm)]
    rfl

theorem Alphabet.digits_of_mapM {cs : List Char} {ns : List Nat} (h : cs.mapM a.value? = some ns) :
    (∀ n ∈ ns, n < 64) ∧ ns.map a.digit = cs := by
  induction cs generalizing ns with
  | nil =>
    cases h
    exact ⟨by simp, rfl⟩
  | cons c cs ih =>
    simp only [List.mapM_cons, Option.bind_eq_bind, Option.bind_eq_some_iff, Option.pure_def,
      Option.some.injEq] at h
    obtain ⟨n, hn, ms, hms, rfl⟩ := h
    obtain ⟨hlt, hdigit⟩ := digit_of_value? hn
    obtain ⟨hlts, hdigits⟩ := ih hms
    refine ⟨?_, by rw [List.map_cons, hdigit, hdigits]⟩
    intro m hm
    rcases List.mem_cons.mp hm with rfl | hm
    · exact hlt
    · exact hlts m hm

/-! ### Six-bit numbers -/

theorem lt_of_mem_sextets {b : Bytes} {n : Nat} (h : n ∈ sextets b) : n < 64 := by
  fun_induction sextets b with
  | case1 => cases h
  | case2 x =>
    have hx := x.toNat_lt
    simp only [List.mem_cons, List.not_mem_nil, or_false] at h
    omega
  | case3 x y =>
    have hx := x.toNat_lt
    have hy := y.toNat_lt
    simp only [List.mem_cons, List.not_mem_nil, or_false] at h
    omega
  | case4 x y z b ih =>
    have hx := x.toNat_lt
    have hy := y.toNat_lt
    have hz := z.toNat_lt
    simp only [List.mem_cons] at h
    rcases h with h | h | h | h | h
    · omega
    · omega
    · omega
    · omega
    · exact ih h

/-- An octet is put together again from the numbers that its bits went to. -/
theorem ofNat_of_eq {x : UInt8} {n : Nat} (h : n = x.toNat) : UInt8.ofNat n = x := by
  rw [h, UInt8.ofNat_toNat]

theorem ofSextets?_sextets (b : Bytes) : ofSextets? (sextets b) = some b := by
  fun_induction sextets b with
  | case1 => rfl
  | case2 x =>
    have hx := x.toNat_lt
    rw [ofSextets?, if_pos (by omega), ofNat_of_eq (x := x) (by omega)]
  | case3 x y =>
    have hx := x.toNat_lt
    have hy := y.toNat_lt
    rw [ofSextets?, if_pos (by omega), ofNat_of_eq (x := x) (by omega),
      ofNat_of_eq (x := y) (by omega)]
  | case4 x y z b ih =>
    have hx := x.toNat_lt
    have hy := y.toNat_lt
    have hz := z.toNat_lt
    rw [ofSextets?, ih, ofNat_of_eq (x := x) (by omega), ofNat_of_eq (x := y) (by omega),
      ofNat_of_eq (x := z) (by omega)]
    rfl

theorem sextets_of_ofSextets? {ns : List Nat} {b : Bytes} (hlt : ∀ n ∈ ns, n < 64)
    (h : ofSextets? ns = some b) : sextets b = ns := by
  fun_induction ofSextets? ns generalizing b with
  | case1 =>
    cases h
    rfl
  | case2 => cases h
  | case3 m n hzero =>
    cases h
    simp only [List.forall_mem_cons] at hlt
    obtain ⟨hm, hn, -⟩ := hlt
    rw [sextets, Bytes.toNat_ofNat_octet (by omega)]
    simp only [List.cons.injEq, and_true]
    omega
  | case4 => cases h
  | case5 m n k hzero =>
    cases h
    simp only [List.forall_mem_cons] at hlt
    obtain ⟨hm, hn, hk, -⟩ := hlt
    rw [sextets, Bytes.toNat_ofNat_octet (by omega), Bytes.toNat_ofNat_octet (by omega)]
    simp only [List.cons.injEq, and_true]
    omega
  | case6 => cases h
  | case7 m n k l ns ih =>
    simp only [List.forall_mem_cons] at hlt
    obtain ⟨hm, hn, hk, hl, hns⟩ := hlt
    simp only [Option.bind_eq_bind, Option.bind_eq_some_iff, Option.pure_def,
      Option.some.injEq] at h
    obtain ⟨b, hb, rfl⟩ := h
    rw [sextets, Bytes.toNat_ofNat_octet (by omega), Bytes.toNat_ofNat_octet (by omega),
      Bytes.toNat_ofNat_octet (by omega), ih hns hb]
    simp only [List.cons.injEq, and_true]
    omega

/-! ### Texts -/

/-- How much padding a rule has written after so many digits. -/
def Padding.written (p : Padding) (digits : Nat) : Nat :=
  match p with
  | .never => 0
  | _ => paddingFor digits

theorem encode_eq (p : Padding) (b : Bytes) :
    encode a p b = (sextets b).map a.digit ++
      List.replicate (p.written ((sextets b).map a.digit).length) '=' := by
  cases p with
  | never => exact (List.append_nil _).symm
  | always => rfl
  | optional => rfl

theorem Padding.allows_written (p : Padding) (digits : Nat) : p.allows digits (p.written digits) := by
  cases p <;> simp [allows, written]

/-- Under a rule that leaves no choice, the padding allowed is the padding written. -/
theorem Padding.eq_written {p : Padding} {digits padding : Nat} (hp : p ≠ .optional)
    (h : p.allows digits padding = true) : padding = p.written digits := by
  cases p with
  | never => simpa [allows, written] using h
  | always => simpa [allows, written] using h
  | optional => exact absurd rfl hp

theorem Alphabet.Proper.ne_pad_of_mem (ha : a.Proper) {b : Bytes} {c : Char}
    (h : c ∈ (sextets b).map a.digit) : c ≠ '=' := by
  obtain ⟨n, hn, rfl⟩ := List.mem_map.mp h
  exact ha.digit_ne_pad (lt_of_mem_sextets hn)

theorem decode?_eq_some {p : Padding} {cs : List Char} {b : Bytes} :
    decode? a p cs = some b ↔
      (∀ c ∈ cs.dropWhile (· ≠ '='), c = '=') ∧
      p.allows (cs.takeWhile (· ≠ '=')).length (cs.dropWhile (· ≠ '=')).length = true ∧
      ∃ ns, (cs.takeWhile (· ≠ '=')).mapM a.value? = some ns ∧ ofSextets? ns = some b := by
  simp only [decode?, Option.bind_eq_bind, Option.bind_eq_some_iff, Option.guard_eq_some',
    exists_const, List.all_eq_true, decide_eq_true_eq]

theorem decode?_encode (ha : a.Proper) (p : Padding) (b : Bytes) :
    decode? a p (encode a p b) = some b := by
  have hdigits : ∀ c ∈ (sextets b).map a.digit, decide (c ≠ '=') = true :=
    fun c hc => decide_eq_true (ha.ne_pad_of_mem hc)
  have hpad : ∀ n, (List.replicate n '=').takeWhile (· ≠ '=') = [] ∧
      (List.replicate n '=').dropWhile (· ≠ '=') = List.replicate n '=' := by
    intro n
    cases n <;> simp [List.replicate_succ]
  rw [encode_eq, decode?_eq_some, List.takeWhile_append_of_pos hdigits,
    List.dropWhile_append_of_pos hdigits, (hpad _).1, (hpad _).2, List.append_nil,
    List.length_replicate]
  refine ⟨fun c hc => (List.mem_replicate.mp hc).2, p.allows_written _, sextets b, ?_, ?_⟩
  · exact ha.mapM_digit fun n => lt_of_mem_sextets
  · exact ofSextets?_sextets b

theorem eq_encode_of_decode? {p : Padding} {cs : List Char} {b : Bytes} (hp : p ≠ .optional)
    (h : decode? a p cs = some b) : cs = encode a p b := by
  obtain ⟨hpad, hallowed, ns, hns, hb⟩ := decode?_eq_some.mp h
  obtain ⟨hlt, hdigits⟩ := Alphabet.digits_of_mapM hns
  have hpadding : cs.dropWhile (· ≠ '=') =
      List.replicate (cs.dropWhile (· ≠ '=')).length '=' :=
    List.eq_replicate_iff.mpr ⟨rfl, hpad⟩
  rw [encode_eq, sextets_of_ofSextets? hlt hb, hdigits, ← Padding.eq_written hp hallowed, ← hpadding,
    List.takeWhile_append_dropWhile]

/-- **A text is read exactly if it is the text of its octets.** -/
theorem decode?_eq_some_iff (ha : a.Proper) {p : Padding} (hp : p ≠ .optional) {cs : List Char}
    {b : Bytes} : decode? a p cs = some b ↔ cs = encode a p b := by
  constructor
  · exact eq_encode_of_decode? hp
  · rintro rfl
    exact decode?_encode ha p b

end CompanyRegistry.Base64
