import Mathlib.Tactic.SplitIfs

/-! What computations that may fail give. -/
namespace ConfigModules

variable {ε α β : Type} {P : α → Prop} {Q : β → Prop}

/-- Whatever a computation gives has a property, unless it fails. -/
def Yields (P : α → Prop) (x : Except ε α) : Prop := ∀ a, x = .ok a → P a

theorem yields_ok {a : α} (h : P a) : Yields P (.ok a : Except ε α) := by
  intro b hb
  cases hb
  exact h

theorem yields_error (e : ε) : Yields P (.error e : Except ε α) := by
  intro b hb
  cases hb

theorem Yields.bind {x : Except ε α} {f : α → Except ε β} (hx : Yields P x)
    (hf : ∀ a, P a → Yields Q (f a)) : Yields Q (x >>= f) := by
  cases x with
  | error e => exact yields_error e
  | ok a => exact hf a (hx a rfl)

theorem yields_bind {x : Except ε α} {f : α → Except ε β} (hf : ∀ a, Yields Q (f a)) :
    Yields Q (x >>= f) :=
  Yields.bind (P := fun _ => True) (fun _ _ => trivial) fun a _ => hf a

theorem exists_of_bind_eq_ok {x : Except ε α} {f : α → Except ε β} {b : β} (h : (x >>= f) = .ok b) :
    ∃ a, x = .ok a ∧ f a = .ok b := by
  cases x with
  | error e => cases h
  | ok a => exact ⟨a, rfl, h⟩

theorem yields_ite {c : Prop} [Decidable c] {x y : Except ε α} (hx : Yields P x) (hy : Yields P y) :
    Yields P (if c then x else y) := by
  split_ifs
  · exact hx
  · exact hy

/-- A check that may fail before the rest. -/
theorem yields_guard {c : Prop} [Decidable c] {x : Except ε Unit} {f : Unit → Except ε α}
    (hf : ∀ u, Yields P (f u)) : Yields P (if c then x >>= f else f ()) :=
  yields_ite (yields_bind hf) (hf ())

end ConfigModules
