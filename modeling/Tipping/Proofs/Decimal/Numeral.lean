import Mathlib.Algebra.Group.Nat.Defs
import Mathlib.Tactic.Lemma
import Tipping.Decimal.Numeral

/-!
Numerals that are written have digits before the point, and no zero in front of others there.
-/

namespace Tipping

lemma digitsOf_ne_nil (n : Nat) : digitsOf n ≠ [] := by
  rw [digitsOf]
  split <;> simp

/-- Only zero is written with a zero in front. -/
lemma eq_zero_of_digitsOf {n : Nat} {ds : List Digit} (h : digitsOf n = 0 :: ds) : n = 0 := by
  induction n using Nat.strongRecOn generalizing ds with
  | _ n ih =>
    rw [digitsOf] at h
    split at h
    · rename_i hlt
      simp only [List.cons.injEq, Fin.ext_iff, Fin.ofNat] at h
      have := h.1
      simp only [Fin.val_zero] at this
      omega
    · rename_i hge
      cases hq : digitsOf (n / 10) with
      | nil => exact absurd hq (digitsOf_ne_nil _)
      | cons d ds' =>
        rw [hq, List.cons_append, List.cons.injEq] at h
        have := ih (n / 10) (by omega) (h.1 ▸ hq)
        omega

lemma length_digitsOf {n k : Nat} (h : 10 ^ k ≤ n) (h' : n < 10 ^ (k + 1)) :
    (digitsOf n).length = k + 1 := by
  induction k generalizing n with
  | zero =>
    rw [digitsOf, if_pos (by omega)]
    rfl
  | succ k ih =>
    have hpow : 10 ^ (k + 1) = 10 * 10 ^ k := Nat.pow_succ'
    have hpow' : 10 ^ (k + 2) = 10 * 10 ^ (k + 1) := Nat.pow_succ'
    have hpos : 0 < 10 ^ k := Nat.pow_pos (by decide)
    rw [digitsOf, if_neg (by omega), List.length_append, List.length_singleton,
      ih (by omega) (by omega)]

namespace Numeral

/-- There are digits before the point, and a leading zero stands alone. -/
structure Plain (n : Numeral) : Prop where
  whole : n.whole ≠ []
  lead : ∀ ds, n.whole = 0 :: ds → ds = []

lemma plain_ofInt (n : Int) : (ofInt n).Plain where
  whole := digitsOf_ne_nil _
  lead ds h := by
    have hn : n.natAbs = 0 := eq_zero_of_digitsOf h
    rw [ofInt, hn, digitsOf] at h
    simpa using h.symm

end Numeral

lemma Layout.plain_numeral (l : Layout) (negative : Bool) (d : Decimal) :
    (l.numeral negative d).Plain := by
  simp only [numeral]
  cases hds : digitsOf d.digits with
  | nil => exact absurd hds (digitsOf_ne_nil _)
  | cons first rest =>
    split
    · exact ⟨by simp, fun ds h => (List.cons.inj h).2.symm⟩
    rename_i hne
    -- from here on the digits before the point begin with those of the number
    have hfirst : first ≠ 0 := fun h => hne (eq_zero_of_digitsOf (h ▸ hds))
    split
    · split
      · exact ⟨by simp, fun ds h => (List.cons.inj h).2.symm⟩
      · exact ⟨by simp, fun ds h => absurd (List.cons.inj h).1 hfirst⟩
    · exact ⟨by simp, fun ds h => absurd (List.cons.inj h).1 hfirst⟩

end Tipping
