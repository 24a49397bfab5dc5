import Mathlib.Tactic.Lemma

/-!
When a computation that may fail comes to a result, and when two of them agree on it.
-/

namespace Tipping.Outcome

variable {ε α β : Type}

@[simp] lemma bind_eq_ok {x : Except ε α} {f : α → Except ε β} {b : β} :
    x >>= f = .ok b ↔ ∃ a, x = .ok a ∧ f a = .ok b := by
  cases x <;> simp [bind, Except.bind]

@[simp] lemma map_eq_ok {x : Except ε α} {f : α → β} {b : β} :
    f <$> x = .ok b ↔ ∃ a, x = .ok a ∧ f a = b := by
  cases x <;> simp [Functor.map, Except.map]

/-- Two computations come to the same result, or both to none; each fails in its own way. -/
def Agree {ε' : Type} (x : Except ε α) (y : Except ε' α) : Prop := ∀ a, x = .ok a ↔ y = .ok a

namespace Agree

variable {ε' : Type} {x : Except ε α} {y : Except ε' α}

lemma ok (a : α) : Agree (.ok a : Except ε α) (.ok a : Except ε' α) := by
  intro b
  simp

lemma error (e : ε) (e' : ε') : Agree (.error e : Except ε α) (.error e' : Except ε' α) := by
  intro a
  simp

lemma bind (h : Agree x y) {f : α → Except ε β} {g : α → Except ε' β}
    (hfg : ∀ a, Agree (f a) (g a)) : Agree (x >>= f) (y >>= g) := by
  intro b
  simp only [bind_eq_ok]
  exact exists_congr fun a => and_congr (h a) (hfg a b)

lemma map (h : Agree x y) (f : α → β) : Agree (f <$> x) (f <$> y) := by
  intro b
  simp only [map_eq_ok]
  exact exists_congr fun a => and_congr_left' (h a)

lemma refl (x : Except ε α) : Agree x x := fun _ => Iff.rfl

lemma symm (h : Agree x y) : Agree y x := fun a => (h a).symm

lemma trans {ε'' : Type} {z : Except ε'' α} (h : Agree x y) (h' : Agree y z) : Agree x z := by
  intro a
  exact (h a).trans (h' a)

lemma mapError (x : Except ε α) (f : ε → ε') : Agree (x.mapError f) x := by
  cases x with
  | ok a => exact .ok a
  | error e => exact .error _ _

lemma of_toOption (h : x.toOption = y.toOption) : Agree x y := by
  intro a
  cases x <;> cases y <;> simp_all [Except.toOption]

end Agree

end Tipping.Outcome
