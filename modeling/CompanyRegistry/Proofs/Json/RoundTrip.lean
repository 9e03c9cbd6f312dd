import CompanyRegistry.Json.Decoder
import CompanyRegistry.Proofs.Json.Scalars

/-!
# JSON values, read back

`Written` are the values that have a text of their own: nothing in them is torn or garbled, every member
has a name, and numbers are whole and of 64 bits. Reading what `render` writes for such a value gives it
back and leaves what follows (`readValue_octets`), so a decoder given the text sees the value itself
(`decodeText_render`).

The reader counts its steps down. The induction is on the value, for every count that is at least the
length of the text: each part of a value is shorter than the text it stands in by a bracket, a comma or a
colon, and costs one step.
-/

namespace CompanyRegistry.Json

open Bytes

mutual

/-- A value that has a text of its own. -/
def Written : Json → Prop
  | .null => True
  | .bool _ => True
  | .number (.whole i) => -2 ^ 63 ≤ i ∧ i < 2 ^ 64
  | .text _ => True
  | .array items => WrittenItems items
  | .object members => WrittenMembers members
  | _ => False

/-- `Written` for the items of an array. -/
def WrittenItems : List Json → Prop
  | [] => True
  | v :: r => Written v ∧ WrittenItems r

/-- `Written` for the members of an object. -/
def WrittenMembers : List Member → Prop
  | [] => True
  | .entry (some _) v :: r => Written v ∧ WrittenMembers r
  | _ :: _ => False

end

/-- The octets of a value's text. -/
def octets (v : Json) : Bytes := ofChars (renderChars v)

/-- The octets of the items of an array. -/
def itemOctets (items : List Json) : Bytes := ofChars (renderItems items)

/-- The octets of the members of an object. -/
def memberOctets (members : List Member) : Bytes := ofChars (renderMembers members)

variable {rest : Bytes} {fuel : Nat}

/-! ### Scalars -/

theorem octets_text (s : String) :
    octets (.text s) = 0x22 :: (ofChars (s.toList.flatMap escape) ++ [0x22]) := by
  show ofChars (quoted s) = _
  rw [quoted, ofChars_append, ofChars_cons]
  rfl

theorem readString_text (s : String) :
    readString [] true (ofChars (s.toList.flatMap escape) ++ 0x22 :: rest) =
      some ((utf8 s).reverse, true, rest) := by
  rw [readString_escaped, List.append_nil, utf8_eq_ofChars]

theorem stringValue_utf8 (s : String) : stringValue (utf8 s).reverse true = .text s := by
  simp [stringValue, ofUtf8?_utf8]

theorem nameOf_utf8 (s : String) : nameOf (utf8 s).reverse true = some s := by
  simp [nameOf, ofUtf8?_utf8]

theorem readScalar_text (s : String) :
    readScalar (octets (.text s) ++ rest) = (.text s, rest) := by
  rw [octets_text, List.cons_append, List.append_assoc, readScalar.eq_def]
  simp only [if_true, List.singleton_append, readString_text, stringValue_utf8]

/-- The first octet of a number is its sign or a digit. -/
theorem octets_whole (i : Int) :
    ∃ b r, octets (.number (.whole i)) = b :: r ∧ (b = 0x2D ∨ isDigit b = true) := by
  cases i with
  | ofNat n =>
    show ∃ b r, ofChars (Decimal.digits n) = b :: r ∧ _
    have hdigits : ∀ c ∈ Decimal.digits n, Decimal.isDigit c = true :=
      fun c => Decimal.isDigit_of_mem_digits
    cases hoctets : ofChars (Decimal.digits n) with
    | nil =>
      rw [ofChars_digits hdigits, List.map_eq_nil_iff] at hoctets
      exact absurd hoctets (Decimal.digits_ne_nil n)
    | cons b r =>
      refine ⟨b, r, rfl, Or.inr (isDigit_of_mem_ofChars hdigits ?_)⟩
      rw [hoctets]
      exact List.mem_cons_self
  | negSucc n => exact ⟨0x2D, _, rfl, Or.inl rfl⟩

theorem readScalar_whole {i : Int} (hlow : -2 ^ 63 ≤ i) (hhigh : i < 2 ^ 64)
    (h : EndsNumber rest) :
    readScalar (octets (.number (.whole i)) ++ rest) = (.number (.whole i), rest) := by
  have hread := readNumber?_text hlow hhigh h
  obtain ⟨b, r, hoctets, hb⟩ := octets_whole i
  change readNumber? (octets (.number (.whole i)) ++ rest) = _ at hread
  rw [hoctets, List.cons_append] at hread ⊢
  have hother : b ≠ 0x22 ∧ b ≠ 0x74 ∧ b ≠ 0x66 ∧ b ≠ 0x6E := by
    refine ⟨?_, ?_, ?_, ?_⟩ <;>
    · rintro rfl
      revert hb
      decide
  rw [readScalar.eq_def]
  simp only [hother, if_false, hread]

/-! ### How texts begin -/

/-- An octet that no blank is passed over for and that neither opens nor closes anything. -/
def OpensScalar (b : UInt8) : Prop :=
  isSpace b = false ∧ b ≠ 0x5B ∧ b ≠ 0x5D ∧ b ≠ 0x7B ∧ b ≠ 0x7D

theorem dropWhile_isSpace {b : UInt8} (h : isSpace b = false) (r : Bytes) :
    (b :: r).dropWhile isSpace = b :: r :=
  List.dropWhile_cons_of_neg (by simp [h])

theorem readValue_scalar {b : UInt8} (h : OpensScalar b) (r : Bytes) :
    readValue (fuel + 1) (b :: r) = readScalar (b :: r) := by
  obtain ⟨hspace, harray, -, hobject, -⟩ := h
  rw [readValue.eq_def]
  simp only [dropWhile_isSpace hspace]
  split
  · rename_i heq
    exact absurd (List.cons.inj heq).1 harray
  · rename_i heq
    exact absurd (List.cons.inj heq).1 hobject
  · rfl

theorem opensScalar_number {b : UInt8} (h : b = 0x2D ∨ isDigit b = true) : OpensScalar b := by
  rcases h with rfl | h
  · exact ⟨by decide, by decide, by decide, by decide, by decide⟩
  · refine ⟨?_, ?_, ?_, ?_, ?_⟩
    · rw [Bool.eq_false_iff]
      intro hspace
      simp only [isSpace, Bool.or_eq_true, beq_iff_eq] at hspace
      rcases hspace with ((rfl | rfl) | rfl) | rfl <;> revert h <;> decide
    all_goals
      rintro rfl
      revert h
      decide

/-- The text of a value begins with no blank and does not close what it stands in. -/
theorem octets_head {v : Json} (h : Written v) :
    ∃ b r, octets v = b :: r ∧ isSpace b = false ∧ b ≠ 0x5D := by
  cases v with
  | null => exact ⟨0x6E, _, rfl, by decide, by decide⟩
  | bool b =>
    cases b with
    | true => exact ⟨0x74, _, rfl, by decide, by decide⟩
    | false => exact ⟨0x66, _, rfl, by decide, by decide⟩
  | number n =>
    cases n with
    | whole i =>
      obtain ⟨b, r, hoctets, hb⟩ := octets_whole i
      obtain ⟨hspace, -, hclose, -⟩ := opensScalar_number hb
      exact ⟨b, r, hoctets, hspace, hclose⟩
    | fractional | unbounded => exact h.elim
  | text s => exact ⟨0x22, _, octets_text s, by decide, by decide⟩
  | array items => exact ⟨0x5B, _, rfl, by decide, by decide⟩
  | object members => exact ⟨0x7B, _, rfl, by decide, by decide⟩
  | garbled | broken => exact h.elim

theorem fuel_pos {v : Json} (h : Written v) (hfuel : (octets v).length ≤ fuel) :
    ∃ less, fuel = less + 1 := by
  obtain ⟨b, r, hoctets, -⟩ := octets_head h
  rw [hoctets, List.length_cons] at hfuel
  exact Nat.exists_eq_succ_of_ne_zero (by omega)

/-! ### Parts of arrays and objects -/

theorem endsNumber_comma : EndsNumber (0x2C :: rest) := by
  rintro b ⟨⟩
  decide

theorem endsNumber_bracket : EndsNumber (0x5D :: rest) := by
  rintro b ⟨⟩
  decide

theorem endsNumber_brace : EndsNumber (0x7D :: rest) := by
  rintro b ⟨⟩
  decide

theorem octets_array (items : List Json) :
    octets (.array items) = 0x5B :: (itemOctets items ++ [0x5D]) := by
  show ofChars ('[' :: renderItems items ++ [']']) = _
  rw [ofChars_append, ofChars_cons]
  rfl

theorem octets_object (members : List Member) :
    octets (.object members) = 0x7B :: (memberOctets members ++ [0x7D]) := by
  show ofChars ('\x7b' :: renderMembers members ++ ['\x7d']) = _
  rw [ofChars_append, ofChars_cons]
  rfl

theorem itemOctets_cons (v w : Json) (items : List Json) :
    itemOctets (v :: w :: items) = octets v ++ 0x2C :: itemOctets (w :: items) := by
  show ofChars (renderChars v ++ ',' :: renderItems (w :: items)) = _
  rw [ofChars_append, ofChars_cons]
  rfl

/-- The octets of a member's name, and the colon after it. -/
def nameOctets (name : String) : Bytes :=
  0x22 :: (ofChars (name.toList.flatMap escape) ++ [0x22, 0x3A])

theorem memberOctets_singleton (name : String) (v : Json) :
    memberOctets [.entry (some name) v] = nameOctets name ++ octets v := by
  show ofChars (quoted name ++ ':' :: renderChars v) = _
  rw [ofChars_append, ofChars_cons, quoted, ofChars_append, ofChars_cons, nameOctets]
  simp [octets, encode_ascii]

theorem memberOctets_cons (name : String) (v : Json) (m : Member) (members : List Member) :
    memberOctets (.entry (some name) v :: m :: members) =
      nameOctets name ++ (octets v ++ 0x2C :: memberOctets (m :: members)) := by
  show ofChars (quoted name ++ ':' :: renderChars v ++ ',' :: renderMembers (m :: members)) = _
  rw [ofChars_append, ofChars_append, ofChars_cons, ofChars_cons, quoted, ofChars_append,
    ofChars_cons, nameOctets]
  simp [octets, memberOctets, encode_ascii]

theorem readName?_nameOctets (name : String) :
    readName? (nameOctets name ++ rest) = some (some name, some rest) := by
  rw [nameOctets, List.cons_append, List.append_assoc]
  show readName? (0x22 :: (_ ++ 0x22 :: 0x3A :: rest)) = _
  rw [readName?.eq_def]
  simp only [readString_text, nameOf_utf8]
  rfl

/-! ### One step of the reader -/

theorem readItems_last {v : Json} {acc : List Json}
    (h : readValue fuel (octets v ++ 0x5D :: rest) = (v, 0x5D :: rest)) :
    readItems (fuel + 1) acc (itemOctets [v] ++ 0x5D :: rest) = (acc.reverse ++ [v], rest) := by
  show readItems (fuel + 1) acc (octets v ++ 0x5D :: rest) = _
  rw [readItems.eq_def]
  simp only [h]
  exact congrArg (·, rest) List.reverse_cons

theorem readItems_more {v w : Json} {acc items : List Json}
    (h : readValue fuel (octets v ++ 0x2C :: (itemOctets (w :: items) ++ 0x5D :: rest)) =
      (v, 0x2C :: (itemOctets (w :: items) ++ 0x5D :: rest))) :
    readItems (fuel + 1) acc (itemOctets (v :: w :: items) ++ 0x5D :: rest) =
      readItems fuel (v :: acc) (itemOctets (w :: items) ++ 0x5D :: rest) := by
  rw [itemOctets_cons, List.append_assoc, readItems.eq_def]
  simp only [List.cons_append, h]
  rfl

theorem readMembers_last {name : String} {v : Json} {acc : List Member}
    (h : readValue fuel (octets v ++ 0x7D :: rest) = (v, 0x7D :: rest)) :
    readMembers (fuel + 1) acc (memberOctets [.entry (some name) v] ++ 0x7D :: rest) =
      (acc.reverse ++ [.entry (some name) v], rest) := by
  rw [memberOctets_singleton, List.append_assoc, readMembers.eq_def]
  have hblank : ∀ r, (nameOctets name ++ r).dropWhile isSpace = nameOctets name ++ r :=
    fun _ => rfl
  simp only [hblank, readName?_nameOctets, h]
  exact congrArg (·, rest) List.reverse_cons

theorem readMembers_more {name : String} {v : Json} {m : Member} {acc members : List Member}
    (h : readValue fuel (octets v ++ 0x2C :: (memberOctets (m :: members) ++ 0x7D :: rest)) =
      (v, 0x2C :: (memberOctets (m :: members) ++ 0x7D :: rest))) :
    readMembers (fuel + 1) acc
        (memberOctets (.entry (some name) v :: m :: members) ++ 0x7D :: rest) =
      readMembers fuel (.entry (some name) v :: acc)
        (memberOctets (m :: members) ++ 0x7D :: rest) := by
  rw [memberOctets_cons, List.append_assoc, List.append_assoc, readMembers.eq_def]
  have hblank : ∀ r, (nameOctets name ++ r).dropWhile isSpace = nameOctets name ++ r :=
    fun _ => rfl
  simp only [List.cons_append, hblank, readName?_nameOctets, h]
  rfl

theorem itemOctets_head {v : Json} (hv : Written v) (items : List Json) :
    ∃ b r, itemOctets (v :: items) = b :: r ∧ isSpace b = false ∧ b ≠ 0x5D := by
  obtain ⟨b, r, hoctets, hb⟩ := octets_head hv
  cases items with
  | nil => exact ⟨b, r, hoctets, hb⟩
  | cons w items => exact ⟨b, _, by rw [itemOctets_cons, hoctets, List.cons_append], hb⟩

theorem memberOctets_head (name : String) (v : Json) (members : List Member) :
    ∃ r, memberOctets (.entry (some name) v :: members) = 0x22 :: r := by
  cases members with
  | nil => exact ⟨_, memberOctets_singleton name v⟩
  | cons m members => exact ⟨_, memberOctets_cons name v m members⟩

theorem readValue_array {v : Json} {items : List Json} (hv : Written v)
    (h : readItems fuel [] (itemOctets (v :: items) ++ 0x5D :: rest) = (v :: items, rest)) :
    readValue (fuel + 1) (octets (.array (v :: items)) ++ rest) = (.array (v :: items), rest) := by
  obtain ⟨b, r, hoctets, hspace, hclose⟩ := itemOctets_head hv items
  rw [hoctets, List.cons_append] at h
  rw [octets_array, hoctets, List.cons_append, List.cons_append, List.cons_append,
    List.append_assoc, readValue.eq_def]
  have hopen : ∀ r, (0x5B :: r : Bytes).dropWhile isSpace = 0x5B :: r := fun _ => rfl
  simp only [hopen, List.cons_append, dropWhile_isSpace hspace, List.nil_append]
  split
  · rename_i heq
    exact absurd (List.cons.inj heq).1 hclose
  · rw [h]

theorem readValue_object {name : String} {v : Json} {members : List Member}
    (h : readMembers fuel [] (memberOctets (.entry (some name) v :: members) ++ 0x7D :: rest) =
      (.entry (some name) v :: members, rest)) :
    readValue (fuel + 1) (octets (.object (.entry (some name) v :: members)) ++ rest) =
      (.object (.entry (some name) v :: members), rest) := by
  obtain ⟨r, hoctets⟩ := memberOctets_head name v members
  rw [hoctets, List.cons_append] at h
  rw [octets_object, hoctets, List.cons_append, List.cons_append, List.cons_append,
    List.append_assoc, readValue.eq_def]
  have hopen : ∀ r, (0x7B :: r : Bytes).dropWhile isSpace = 0x7B :: r := fun _ => rfl
  have hquote : ∀ r, (0x22 :: r : Bytes).dropWhile isSpace = 0x22 :: r := fun _ => rfl
  simp only [hopen, hquote, List.cons_append, List.nil_append]
  split
  · rename_i heq
    exact absurd (List.cons.inj heq).1 (by decide)
  · rw [h]

/-! ### Values -/

mutual

/-- Reading the text of a value gives it back and leaves what follows. -/
theorem readValue_octets : ∀ (v : Json), Written v → ∀ (fuel : Nat) (rest : Bytes),
    (octets v).length ≤ fuel → EndsNumber rest → readValue fuel (octets v ++ rest) = (v, rest)
  | .null, _, fuel + 1, rest, _, _ => rfl
  | .bool true, _, fuel + 1, rest, _, _ => rfl
  | .bool false, _, fuel + 1, rest, _, _ => rfl
  | .number (.whole i), hi, fuel + 1, rest, _, hrest => by
    obtain ⟨b, r, hoctets, hb⟩ := octets_whole i
    have hread := readScalar_whole hi.1 hi.2 hrest
    rw [hoctets, List.cons_append] at hread ⊢
    rw [readValue_scalar (opensScalar_number hb), hread]
  | .text s, _, fuel + 1, rest, _, _ => by
    have hread : readScalar (octets (.text s) ++ rest) = (.text s, rest) := readScalar_text s
    rw [octets_text, List.cons_append] at hread ⊢
    rw [readValue_scalar ⟨by decide, by decide, by decide, by decide, by decide⟩, hread]
  | .array [], _, fuel + 1, rest, _, _ => rfl
  | .array (v :: items), hv, fuel + 1, rest, hfuel, _ => by
    apply readValue_array hv.1
    apply readItems_octets (v :: items) hv (by simp)
    rw [octets_array, List.length_cons, List.length_append, List.length_singleton] at hfuel
    omega
  | .object [], _, fuel + 1, rest, _, _ => rfl
  | .object (.entry (some name) v :: members), hv, fuel + 1, rest, hfuel, _ => by
    apply readValue_object
    apply readMembers_octets (.entry (some name) v :: members) hv (by simp)
    rw [octets_object, List.length_cons, List.length_append, List.length_singleton] at hfuel
    omega
  | v, hv, 0, rest, hfuel, _ => by
    obtain ⟨less, hless⟩ := fuel_pos hv hfuel
    cases hless

/-- `readValue_octets` for the items of an array. -/
theorem readItems_octets : ∀ (items : List Json), WrittenItems items → items ≠ [] →
    ∀ (fuel : Nat) (acc : List Json) (rest : Bytes), (itemOctets items).length < fuel →
      readItems fuel acc (itemOctets items ++ 0x5D :: rest) = (acc.reverse ++ items, rest)
  | [v], hv, _, fuel + 1, acc, rest, hfuel =>
    readItems_last (readValue_octets v hv.1 fuel _ (Nat.le_of_lt_succ hfuel) endsNumber_bracket)
  | v :: w :: items, hv, _, fuel + 1, acc, rest, hfuel => by
    rw [itemOctets_cons, List.length_append, List.length_cons] at hfuel
    rw [readItems_more (readValue_octets v hv.1 fuel _ (by omega) endsNumber_comma),
      readItems_octets (w :: items) hv.2 (by simp) fuel (v :: acc) rest (by omega)]
    simp

/-- `readValue_octets` for the members of an object. -/
theorem readMembers_octets : ∀ (members : List Member), WrittenMembers members → members ≠ [] →
    ∀ (fuel : Nat) (acc : List Member) (rest : Bytes), (memberOctets members).length < fuel →
      readMembers fuel acc (memberOctets members ++ 0x7D :: rest) = (acc.reverse ++ members, rest)
  | [.entry (some name) v], hv, _, fuel + 1, acc, rest, hfuel => by
    rw [memberOctets_singleton, List.length_append] at hfuel
    exact readMembers_last (readValue_octets v hv.1 fuel _ (by omega) endsNumber_brace)
  | .entry (some name) v :: m :: members, hv, _, fuel + 1, acc, rest, hfuel => by
    rw [memberOctets_cons, List.length_append, List.length_append, List.length_cons] at hfuel
    rw [readMembers_more (readValue_octets v hv.1 fuel _ (by omega) endsNumber_comma),
      readMembers_octets (m :: members) hv.2 (by simp) fuel (.entry (some name) v :: acc) rest
        (by omega)]
    simp

end

theorem read_octets {v : Json} (h : Written v) (hrest : EndsNumber rest) :
    read (octets v ++ rest) = (v, rest) := by
  apply readValue_octets v h _ rest _ hrest
  rw [List.length_append]
  omega

theorem utf8_render (v : Json) : utf8 v.render = octets v := utf8_ofList _

/-- The text of a value is read as that value, and nothing is left of it. -/
theorem read_render {v : Json} (h : Written v) : read (utf8 v.render) = (v, []) := by
  have hread := read_octets h endsNumber_nil
  rwa [List.append_nil, ← utf8_render] at hread

theorem decodeText_render {α : Type} {v : Json} (h : Written v) (decode : Decoder α) :
    decodeText decode (utf8 v.render) = decode v := by
  unfold decodeText
  simp only [read_render h]
  cases decode v with
  | ok a => rfl
  | error e => rfl

/-! ### Which values are written -/

theorem written_whole {n : Nat} (h : n < 2 ^ 64) : Written (.whole n) := by
  show (-2 ^ 63 : Int) ≤ n ∧ (n : Int) < 2 ^ 64
  omega

theorem writtenItems_iff {items : List Json} : WrittenItems items ↔ ∀ v ∈ items, Written v := by
  induction items with
  | nil => simp [WrittenItems]
  | cons v items ih => simp [WrittenItems, ih]

theorem written_record_iff {fields : List (String × Json)} :
    Written (record fields) ↔ ∀ f ∈ fields, Written f.2 := by
  show WrittenMembers _ ↔ _
  induction fields with
  | nil => simp [WrittenMembers]
  | cons f fields ih =>
    obtain ⟨name, v⟩ := f
    simp [WrittenMembers, ih]

end CompanyRegistry.Json
