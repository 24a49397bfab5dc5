import Mathlib.Tactic.Lemma

/-!
A run up to one of its events.

The step is any. What every step keeps holds at every point of a run, and what no step lowers does
not go down; so an event that raises a count is known by the count before it.
-/

namespace Tipping

variable {σ ε : Type}

/-- The state after the first `n` events. -/
def upTo (step : σ → ε → σ) (s : σ) (es : List ε) (n : Nat) : σ := (es.take n).foldl step s

variable {step : σ → ε → σ}

lemma upTo_zero (step : σ → ε → σ) (s : σ) (es : List ε) : upTo step s es 0 = s := rfl

lemma upTo_succ (s : σ) {es : List ε} {n : Nat} {e : ε} (h : es[n]? = some e) :
    upTo step s es (n + 1) = step (upTo step s es n) e := by
  rw [upTo, List.take_add_one, h, Option.toList_some, List.foldl_append]
  rfl

lemma upTo_succ_of_none (s : σ) {es : List ε} {n : Nat} (h : es[n]? = none) :
    upTo step s es (n + 1) = upTo step s es n := by
  rw [upTo, List.take_add_one, h, Option.toList_none, List.append_nil, upTo]

lemma upTo_length (s : σ) (es : List ε) : upTo step s es es.length = es.foldl step s := by
  rw [upTo, List.take_length]

/-- What every event keeps, a run keeps. -/
lemma upTo_inv {P : σ → Prop} (hstep : ∀ s e, P s → P (step s e)) {s : σ} (h : P s)
    (es : List ε) (n : Nat) : P (upTo step s es n) :=
  List.foldlRecOn (es.take n) step h fun s hs e _ => hstep s e hs

/-! ### Counts -/

variable {count : σ → Nat}

lemma upTo_mono (hstep : ∀ s e, count s ≤ count (step s e)) (s : σ) (es : List ε) {k n : Nat}
    (h : k ≤ n) : count (upTo step s es k) ≤ count (upTo step s es n) := by
  induction h with
  | refl => exact Nat.le_refl _
  | @step n _ ih =>
    cases he : es[n]? with
    | none => rwa [upTo_succ_of_none s he]
    | some e =>
      rw [upTo_succ s he]
      exact Nat.le_trans ih (hstep _ e)

/-- An event that raises a count is the only one that takes it beyond what it was. -/
lemma eq_of_count (hstep : ∀ s e, count s ≤ count (step s e)) {s : σ} {es : List ε} {j k : Nat}
    (hraised : count (upTo step s es k) < count (upTo step s es (k + 1)))
    (hle : count (upTo step s es j) ≤ count (upTo step s es k))
    (hlt : count (upTo step s es k) < count (upTo step s es (j + 1))) : j = k := by
  rcases Nat.lt_trichotomy j k with hjk | heq | hkj
  · have := upTo_mono hstep s es (show j + 1 ≤ k from hjk)
    omega
  · exact heq
  · have := upTo_mono hstep s es (show k + 1 ≤ j from hkj)
    omega

end Tipping
