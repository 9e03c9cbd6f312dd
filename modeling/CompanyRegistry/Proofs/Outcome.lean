/-!
# Steps that may fail

When a computation of several steps succeeds: each of its steps does, on what the one before it gave. What is made
of its result is made of nothing else.
-/

namespace CompanyRegistry

variable {ε ε' α β : Type}

theorem bind_eq_ok_iff {x : Except ε α} {f : α → Except ε β} {b : β} :
    x >>= f = .ok b ↔ ∃ a, x = .ok a ∧ f a = .ok b := by
  cases x with
  | error e => simp [bind, Except.bind]
  | ok a => simp [bind, Except.bind]

theorem map_eq_ok_iff {x : Except ε α} {f : α → β} {b : β} :
    x.map f = .ok b ↔ ∃ a, x = .ok a ∧ f a = b := by
  cases x with
  | error e => simp [Except.map]
  | ok a => simp [Except.map]

theorem map_map {γ : Type} (x : Except ε α) (f : α → β) (g : β → γ) :
    (x.map f).map g = x.map (g ∘ f) := by
  cases x with
  | error e => rfl
  | ok a => rfl

theorem mapError_eq_ok_iff {f : ε → ε'} {x : Except ε α} {a : α} :
    x.mapError f = .ok a ↔ x = .ok a := by
  cases x with
  | error e =>
    have hmap : (Except.error e : Except ε α).mapError f = .error (f e) := rfl
    simp [hmap]
  | ok a =>
    have hmap : (Except.ok a : Except ε α).mapError f = .ok a := rfl
    simp [hmap]

theorem bind_of_some {x : Option α} {f : α → Option β} {a : α} {b : Option β} (hx : x = some a)
    (hf : f a = b) : x >>= f = b := by
  rw [hx]
  exact hf

theorem guard_of_true {p : Prop} [Decidable p] (h : p) : (guard p : Option Unit) = some () :=
  if_pos h

end CompanyRegistry
