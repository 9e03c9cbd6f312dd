import CompanyRegistry.Event.KeyTemplate
import CompanyRegistry.Proofs.Company.Records
import CompanyRegistry.Proofs.Text.Octets
import Mathlib.Data.List.Basic

/-!
# Keys tell companies apart

Texts that are put one after another can come out the same though they are cut in different places: with `a` and
`bc` or with `ab` and `c` in two placeholders side by side, the key would be `abc`. Here this cannot happen,
because every identifier is written with 36 characters (`length_textChars`) and every kind of change with
seven (`length_label`). So each segment of a key begins where it begins in any other key of the template, and
equal keys have equal segments (`flatMap_eq_iff_of_length`).
-/

namespace CompanyRegistry

/-! ### What fills the placeholders -/

theorem Company.Id.text_injective : Function.Injective Company.Id.text := by
  intro a b h
  have ha := ofText?_text a
  rw [h, ofText?_text b] at ha
  exact (Option.some.inj ha).symm

theorem EventKind.ofLabel?_label (k : EventKind) : ofLabel? k.label = some k := by
  cases k with
  | created => rfl
  | updated => rfl
  | deleted => rfl

theorem EventKind.label_injective : Function.Injective EventKind.label := by
  intro k l h
  have hk := ofLabel?_label k
  rw [h, ofLabel?_label l] at hk
  exact (Option.some.inj hk).symm

theorem EventKind.length_label (k : EventKind) : k.label.toList.length = 7 := by
  cases k with
  | created => rfl
  | updated => rfl
  | deleted => rfl

namespace KeyTemplate

/-! ### Segments of equal lengths -/

/-- Lists put together from parts that are as long on both sides are equal only part by part. -/
theorem flatMap_eq_iff_of_length {α β : Type} {f g : α → List β} {l : List α}
    (hlength : ∀ a ∈ l, (f a).length = (g a).length) :
    l.flatMap f = l.flatMap g ↔ ∀ a ∈ l, f a = g a := by
  constructor
  · intro h
    induction l with
    | nil => simp
    | cons a l ih =>
      rw [List.forall_mem_cons] at hlength ⊢
      rw [List.flatMap_cons, List.flatMap_cons] at h
      obtain ⟨hhead, htail⟩ := List.append_inj h hlength.1
      exact ⟨hhead, ih hlength.2 htail⟩
  · exact List.flatMap_congr

variable {a b : Company.Id} {k l : EventKind}

theorem length_text (s : Segment) :
    (s.text a.text.toList k).length = (s.text b.text.toList l).length := by
  have hid : ∀ id : Company.Id, id.text.toList.length = 36 := by
    intro id
    rw [Company.Id.text, String.toList_ofList, id.length_textChars]
  cases s with
  | literal text => rfl
  | company => exact (hid a).trans (hid b).symm
  | eventType => exact k.length_label.trans l.length_label.symm

theorem text_eq_iff (s : Segment) :
    s.text a.text.toList k = s.text b.text.toList l ↔
      (s = .company → a = b) ∧ (s = .eventType → k = l) := by
  cases s with
  | literal text => simp [Segment.text]
  | company => simp [Segment.text, String.toList_inj, Company.Id.text_injective.eq_iff]
  | eventType => simp [Segment.text, String.toList_inj, EventKind.label_injective.eq_iff]

theorem render_eq_iff (t : KeyTemplate) :
    t.render a.text k = t.render b.text l ↔
      (.company ∈ t.segments → a = b) ∧ (.eventType ∈ t.segments → k = l) := by
  have hparts : t.render a.text k = t.render b.text l ↔
      ∀ s ∈ t.segments, s.text a.text.toList k = s.text b.text.toList l := by
    rw [render, render, String.ofList_inj]
    exact flatMap_eq_iff_of_length fun s _ => length_text s
  rw [hparts]
  simp only [text_eq_iff]
  constructor
  · intro h
    exact ⟨fun hmem => (h _ hmem).1 rfl, fun hmem => (h _ hmem).2 rfl⟩
  · rintro ⟨hcompany, hkind⟩ s hs
    refine ⟨?_, ?_⟩
    · rintro rfl
      exact hcompany hs
    · rintro rfl
      exact hkind hs

/-! ### Keys of messages -/

/-- The key of a message says as much as the text that is rendered, although an empty text is no key. -/
theorem key_message_eq_iff (t : KeyTemplate) (e f : Event) :
    (t.message e).key = (t.message f).key ↔
      t.render e.entity e.kind = t.render f.entity f.kind := by
  constructor
  · intro h
    simp only [message] at h
    split_ifs at h with he hf hf
    · rw [he, hf]
    · exact Bytes.utf8_injective (Option.some.inj h)
  · intro h
    simp only [message, h]

/-- **Keys tell companies apart.** Two events have the same key under a template exactly if each of its
placeholders is filled alike: if it names the company, they are of one company, and if it names the kind of the
change, they are of one kind. So keys of a template that names the company are never shared between companies,
however its segments stand side by side. -/
theorem keys_tell_companies_apart (t : KeyTemplate) (a b : Company.Id) (k l : EventKind) :
    (t.render a.text k = t.render b.text l ↔
      (.company ∈ t.segments → a = b) ∧ (.eventType ∈ t.segments → k = l)) ∧
    ∀ payload payload' : Bytes,
      (t.message ⟨a.text, k, payload⟩).key = (t.message ⟨b.text, l, payload'⟩).key ↔
        (.company ∈ t.segments → a = b) ∧ (.eventType ∈ t.segments → k = l) := by
  refine ⟨t.render_eq_iff, ?_⟩
  intro payload payload'
  rw [key_message_eq_iff]
  exact t.render_eq_iff

end KeyTemplate

end CompanyRegistry
