import CompanyRegistry.Json.Decoder
import Mathlib.Data.List.Basic

/-!
# Decoders on written values

What the decoders make of a value of the kind that is due, and which fields a record gives that has each of
its names once (`find_record`).
-/

namespace CompanyRegistry.Json

theorem asParsed_text {α : Type} {parse : String → Option α} {s : String} {a : α}
    (h : parse s = some a) : asParsed parse (.text s) = .ok a := by
  have htext : asText (.text s) = .ok s := rfl
  simp only [asParsed, htext, bind, Except.bind, h]

theorem asVariant_text {α : Type} {parse : String → Option α} {s : String} {a : α}
    (h : parse s = some a) : asVariant parse (.text s) = .ok a := by
  simp only [asVariant, h]

theorem asNat_whole {most n : Nat} (h : n ≤ most) : asNat most (.whole n) = .ok n := by
  have hbounds : (0 : Int) ≤ n ∧ (n : Int) ≤ most := ⟨Int.natCast_nonneg n, Int.ofNat_le.mpr h⟩
  simp only [asNat, whole, asWhole, if_pos hbounds]
  rfl

theorem Field.check_of {α : Type} {name : String} {decode : Decoder α} {v : Json} {a : α}
    (h : decode v = .ok a) : (Field.of name decode).check v = .ok () := by
  simp only [Field.of, h]
  rfl

/-! ### Records -/

theorem findMembers_entry {fields : List Field} {found : Found} {name : String} {v : Json}
    {field : Field} {members : List Member} (hfield : fields.find? (·.name == name) = some field)
    (hnew : found.lookup name = none) (hcheck : field.check v = .ok ()) :
    findMembers fields found (.entry (some name) v :: members) =
      findMembers fields ((name, v) :: found) members := by
  simp only [findMembers, hfield, hnew, hcheck, Option.isSome_none]
  rfl

theorem findMembers_record {fields : List Field} {values found : List (String × Json)}
    (hnodup : (values.map (·.1)).Nodup) (hnew : ∀ f ∈ values, found.lookup f.1 = none)
    (hcheck : ∀ f ∈ values, ∃ field, fields.find? (·.name == f.1) = some field ∧
      field.check f.2 = .ok ()) :
    findMembers fields found (values.map fun (n, v) => .entry (some n) v) =
      .ok (values.reverse ++ found) := by
  induction values generalizing found with
  | nil => rfl
  | cons f values ih =>
    obtain ⟨name, v⟩ := f
    obtain ⟨hname, hnodup⟩ := List.nodup_cons.mp hnodup
    obtain ⟨field, hfield, hok⟩ := hcheck _ List.mem_cons_self
    have hnew' : ∀ f ∈ values, List.lookup f.1 ((name, v) :: found) = none := by
      intro f hf
      have hother : (f.1 == name) = false := by
        rw [beq_eq_false_iff_ne]
        intro heq
        exact hname (List.mem_map.mpr ⟨f, hf, heq⟩)
      rw [List.lookup_cons, hother]
      exact hnew f (List.mem_cons_of_mem _ hf)
    rw [List.map_cons, findMembers_entry hfield (hnew _ List.mem_cons_self) hok,
      ih hnodup hnew' (fun f hf => hcheck f (List.mem_cons_of_mem _ hf)), List.reverse_cons,
      List.append_assoc]
    rfl

/-- A record that has each name once gives its fields, the last one first. -/
theorem find_record {fields : List Field} {values : List (String × Json)}
    (hnodup : (values.map (·.1)).Nodup)
    (hcheck : ∀ f ∈ values, ∃ field, fields.find? (·.name == f.1) = some field ∧
      field.check f.2 = .ok ()) :
    find fields (record values) = .ok values.reverse := by
  have hfound : findMembers fields [] (values.map fun (n, v) => .entry (some n) v) =
      .ok (values.reverse ++ []) := findMembers_record hnodup (fun _ _ => rfl) hcheck
  rwa [List.append_nil] at hfound

end CompanyRegistry.Json
