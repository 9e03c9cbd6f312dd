import CompanyRegistry.Json.Decoder
import CompanyRegistry.Proofs.Outcome
import Mathlib.Data.List.Basic

/-!
# Where a field's value stands

A record that is read says where each field came from: in an object there was exactly one member of the
field's name, or none if the field is not among those found (`named_of_findMembers`); in an array its item
stood in the field's place (`place_of_findItems`). A name that comes twice is in no record that is read, so
a value that a check has seen is the only one that there is.
-/

namespace CompanyRegistry.Json

/-- A text that is a value, with blanks around it at most. -/
def Reads (b : Bytes) (v : Json) : Prop := ∃ rest, read b = (v, rest) ∧ onlySpace rest = true

theorem decodeText_eq_ok_iff {α : Type} {decode : Decoder α} {b : Bytes} {a : α} :
    decodeText decode b = .ok a ↔ ∃ v, Reads b v ∧ decode v = .ok a := by
  unfold decodeText Reads
  obtain ⟨v, rest⟩ := read b
  simp only [bind_eq_ok_iff]
  constructor
  · rintro ⟨a', hdecode, h⟩
    split_ifs at h with hspace
    cases h
    exact ⟨v, ⟨rest, rfl, hspace⟩, hdecode⟩
  · rintro ⟨v', ⟨rest', hread, hspace⟩, hdecode⟩
    cases hread
    exact ⟨a, hdecode, if_pos hspace⟩

/-! ### Scalars -/

theorem text_of_asText {v : Json} {s : String} (h : asText v = .ok s) : v = .text s := by
  unfold asText at h
  split at h
  · cases h
    rfl
  · cases h

theorem whole_of_asWhole {least most : Int} {v : Json} {i : Int} (h : asWhole least most v = .ok i) :
    v = .whole i ∧ least ≤ i ∧ i ≤ most := by
  unfold asWhole at h
  split at h
  · split_ifs at h with hbounds
    cases h
    exact ⟨rfl, hbounds⟩
  · cases h

theorem bool_of_asBool {v : Json} {b : Bool} (h : asBool v = .ok b) : v = .bool b := by
  unfold asBool at h
  split at h
  · cases h
    rfl
  · cases h

/-- A name out of several is written as a string, or as the only member of an object. -/
theorem variant_of_asVariant {α : Type} {parse : String → Option α} {v : Json} {a : α}
    (h : asVariant parse v = .ok a) :
    ∃ s, parse s = some a ∧ (v = .text s ∨ v = .object [.entry (some s) .null]) := by
  unfold asVariant at h
  split at h
  · split at h
    · rename_i s _ _ hparse
      cases h
      exact ⟨s, hparse, Or.inl rfl⟩
    · cases h
  · cases h
  · cases h
  · cases h
  · split at h
    · cases h
    · rename_i s _ _ _ _ hparse
      cases h
      exact ⟨s, hparse, Or.inr rfl⟩
    · cases h
    · cases h
  · cases h

/-! ### Objects -/

/-- The members of a name. -/
def named (name : String) (members : List Member) : List Member :=
  members.filter fun
    | .entry (some n) _ => n == name
    | _ => false

theorem named_cons_self (name : String) (v : Json) (members : List Member) :
    named name (.entry (some name) v :: members) = .entry (some name) v :: named name members :=
  List.filter_cons_of_pos (by simp)

theorem named_cons_of_ne {name n : String} (h : n ≠ name) (v : Json) (members : List Member) :
    named name (.entry (some n) v :: members) = named name members :=
  List.filter_cons_of_neg (by simpa using h)

/-- What is found of a name, as members. -/
def foundAs (name : String) (found : Found) : List Member :=
  (found.lookup name).toList.map (.entry (some name))

theorem foundAs_cons_self {name : String} {found : Found} (h : found.lookup name = none) (v : Json) :
    foundAs name ((name, v) :: found) = foundAs name found ++ [.entry (some name) v] := by
  simp [foundAs, h]

theorem foundAs_cons_of_ne {name n : String} (h : n ≠ name) (v : Json) (found : Found) :
    foundAs name ((n, v) :: found) = foundAs name found := by
  have hother : (name == n) = false := beq_eq_false_iff_ne.mpr h.symm
  simp [foundAs, List.lookup_cons, hother]

/-- The members of a known name are those found before and after, one at most. -/
theorem named_of_findMembers {fields : List Field} {found found' : Found} {members : List Member}
    {name : String} (hknown : name ∈ fields.map (·.name))
    (h : findMembers fields found members = .ok found') :
    foundAs name found' = foundAs name found ++ named name members := by
  fun_induction findMembers fields found members with
  | case1 found =>
    cases h
    exact (List.append_nil _).symm
  | case2 => cases h
  | case3 => cases h
  | case4 found n v members hnone hcomplete ih =>
    have hne : n ≠ name := by
      rintro rfl
      obtain ⟨field, hfield, hname⟩ := List.mem_map.mp hknown
      have hfalse := List.find?_eq_none.mp hnone field hfield
      simp [hname] at hfalse
    rw [named_cons_of_ne hne, ih h]
  | case5 => cases h
  | case6 => cases h
  | case7 => cases h
  | case8 found n v members field hfield hnew _ hcheck ih =>
    by_cases hname : n = name
    · subst hname
      have hnone : found.lookup n = none := by
        rwa [Bool.not_eq_true, Option.isSome_eq_false_iff, Option.isNone_iff_eq_none] at hnew
      rw [named_cons_self, ih h, foundAs_cons_self hnone, List.append_assoc]
      rfl
    · rw [named_cons_of_ne hname, ih h, foundAs_cons_of_ne hname]

/-! ### Arrays -/

theorem findItems_cons_eq_ok_iff {f : Field} {fields : List Field} {v : Json} {items : List Json}
    {found : Found} : findItems (f :: fields) (v :: items) = .ok found ↔
      f.check v = .ok () ∧ ∃ rest, findItems fields items = .ok rest ∧ (f.name, v) :: rest = found := by
  rw [findItems]
  cases f.check v with
  | error e => simp
  | ok _ => simp only [map_eq_ok_iff, true_and]

theorem place_of_findItems {fields : List Field} {items : List Json} {found : Found} {name : String}
    {v : Json} (h : findItems fields items = .ok found) (hv : found.lookup name = some v) :
    ∃ (i : Nat) (field : Field), fields[i]? = some field ∧ field.name = name ∧ items[i]? = some v := by
  induction items generalizing fields found with
  | nil =>
    cases fields <;>
    · cases h
      cases hv
  | cons w items ih =>
    cases fields with
    | nil => cases h
    | cons f fields =>
      obtain ⟨-, rest, hrest, rfl⟩ := findItems_cons_eq_ok_iff.mp h
      rw [List.lookup_cons] at hv
      by_cases hname : name = f.name
      · subst hname
        rw [beq_self_eq_true] at hv
        cases hv
        exact ⟨0, f, rfl, rfl, rfl⟩
      · rw [beq_eq_false_iff_ne.mpr hname] at hv
        obtain ⟨i, field, hplace⟩ := ih hrest hv
        exact ⟨i + 1, field, hplace⟩

/-! ### Records -/

/-- What a value gives a field: its only member of that name or, in an array, the item in its place. -/
inductive Gives (fields : List Field) (name : String) : Json → Json → Prop
  | member {members : List Member} {v : Json} (h : named name members = [.entry (some name) v]) :
      Gives fields name (.object members) v
  | item {items : List Json} {v : Json} {i : Nat} {field : Field} (hfield : fields[i]? = some field)
      (hname : field.name = name) (hitem : items[i]? = some v) : Gives fields name (.array items) v

theorem named_of_lookup {fields : List Field} {members : List Member} {found : Found} {name : String}
    (hknown : name ∈ fields.map (·.name)) (h : find fields (.object members) = .ok found) :
    named name members = foundAs name found :=
  (named_of_findMembers hknown h).symm

theorem gives_of_find {fields : List Field} {record v : Json} {found : Found} {name : String}
    (hknown : name ∈ fields.map (·.name)) (h : find fields record = .ok found)
    (hv : found.lookup name = some v) : Gives fields name record v := by
  cases record with
  | object members =>
    apply Gives.member
    rw [named_of_lookup hknown h, foundAs, hv]
    rfl
  | array items =>
    obtain ⟨i, field, hfield, hname, hitem⟩ := place_of_findItems h hv
    exact Gives.item hfield hname hitem
  | _ => cases h

theorem lookup_of_item {fields : List Field} {items : List Json} {found : Found} {i : Nat}
    {field : Field} {v : Json} (h : findItems fields items = .ok found)
    (hfield : fields[i]? = some field) (hitem : items[i]? = some v) :
    found.lookup field.name ≠ none := by
  induction items generalizing fields found i with
  | nil => cases hitem
  | cons w items ih =>
    cases fields with
    | nil => cases h
    | cons f fields =>
      obtain ⟨-, rest, hrest, rfl⟩ := findItems_cons_eq_ok_iff.mp h
      rw [List.lookup_cons]
      cases hname : field.name == f.name with
      | true => exact Option.some_ne_none _
      | false =>
        cases i with
        | zero =>
          cases hfield
          rw [beq_self_eq_true] at hname
          cases hname
        | succ i => exact ih hrest hfield hitem

/-- Of a field that is not found, the record says nothing. -/
theorem not_gives_of_find {fields : List Field} {record : Json} {found : Found} {name : String}
    (hknown : name ∈ fields.map (·.name)) (h : find fields record = .ok found)
    (hnone : found.lookup name = none) (v : Json) : ¬ Gives fields name record v := by
  intro hgives
  cases hgives with
  | member hnamed =>
    rw [named_of_lookup hknown h, foundAs, hnone] at hnamed
    cases hnamed
  | item hfield hname hitem =>
    rw [← hname] at hnone
    exact lookup_of_item h hfield hitem hnone

theorem lookup_of_required {α : Type} {found : Found} {name : String} {decode : Decoder α} {a : α}
    (h : found.required name decode = .ok a) :
    ∃ v, found.lookup name = some v ∧ decode v = .ok a := by
  unfold Found.required at h
  split at h
  · rename_i v hv
    exact ⟨v, hv, h⟩
  · cases h

theorem lookup_of_withDefault {α : Type} {found : Found} {name : String} {decode : Decoder α}
    {default a : α} (h : found.withDefault name decode default = .ok a) :
    (∃ v, found.lookup name = some v ∧ decode v = .ok a) ∨
      found.lookup name = none ∧ a = default := by
  unfold Found.withDefault at h
  split at h
  · rename_i v hv
    exact Or.inl ⟨v, hv, h⟩
  · rename_i hnone
    cases h
    exact Or.inr ⟨hnone, rfl⟩

/-- A record gives a field a value of this kind, or says nothing of it and the default stands. -/
def Tells {α : Type} (fields : List Field) (name : String) (means : Json → α → Prop) (default : α)
    (record : Json) (a : α) : Prop :=
  (∃ v, Gives fields name record v ∧ means v a) ∨
    (∀ v, ¬ Gives fields name record v) ∧ a = default

theorem tells_of_withDefault {α : Type} {fields : List Field} {record : Json} {found : Found}
    {name : String} {decode : Decoder α} {means : Json → α → Prop} {default a : α}
    (hknown : name ∈ fields.map (·.name)) (hfind : find fields record = .ok found)
    (hmeans : ∀ v a, decode v = .ok a → means v a)
    (h : found.withDefault name decode default = .ok a) :
    Tells fields name means default record a := by
  rcases lookup_of_withDefault h with ⟨v, hv, hdecode⟩ | ⟨hnone, hdefault⟩
  · exact Or.inl ⟨v, gives_of_find hknown hfind hv, hmeans v a hdecode⟩
  · exact Or.inr ⟨not_gives_of_find hknown hfind hnone, hdefault⟩

end CompanyRegistry.Json
