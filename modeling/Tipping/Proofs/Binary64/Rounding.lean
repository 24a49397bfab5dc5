import Mathlib.Tactic.Linarith
import Mathlib.Tactic.NormNum
import Mathlib.Tactic.Ring
import Tipping.Proofs.Binary64

/-!
How far rounding goes.

A quotient is rounded to a multiple of a power of two, by half of that power at most. From this
come the bounds on both sides, and that there is a double for everything below the largest one
and half a step more.
-/

namespace Tipping.Binary64

/-! ### To the nearest whole number -/

lemma divHalfEven_bounds (num : Nat) {den : Nat} (hden : 0 < den) :
    num / den ≤ divHalfEven num den ∧ divHalfEven num den ≤ num / den + 1 ∧
      2 * (divHalfEven num den * den) ≤ 2 * num + den ∧
      2 * num ≤ 2 * (divHalfEven num den * den) + den := by
  have hnum : num / den * den + num % den = num := Nat.div_add_mod' num den
  have hlt : num % den < den := Nat.mod_lt num hden
  have hsucc : (num / den + 1) * den = num / den * den + den := Nat.succ_mul ..
  simp only [divHalfEven]
  split
  · refine ⟨Nat.le_refl _, Nat.le_succ _, ?_, ?_⟩ <;> omega
  · refine ⟨Nat.le_succ _, Nat.le_refl _, ?_, ?_⟩ <;> rw [hsucc] <;> omega

/-! ### To the nearest double -/

/-- The shift that leaves 53 bits of the quotient. -/
def shiftOf (num den : Nat) : Nat := (num / den).log2 - 52

/-- The significand that the quotient is rounded to, `2^53` not yet halved. -/
def roundedOf (num den : Nat) : Nat := divHalfEven num (den * 2 ^ shiftOf num den)

section Rounding

variable {num den : Nat}

lemma quotient_lt (num den : Nat) : num / den < 2 ^ 53 * 2 ^ shiftOf num den := by
  rw [← Nat.pow_add]
  refine Nat.lt_of_lt_of_le Nat.lt_log2_self (Nat.pow_le_pow_right (by decide) ?_)
  simp only [shiftOf]
  omega

/-- A shift is needed only for a quotient of more than 53 bits. -/
lemma le_quotient (h : 2 ^ 52 ≤ num / den) : 2 ^ 52 * 2 ^ shiftOf num den ≤ num / den := by
  have hpos : num / den ≠ 0 := by
    have := Nat.two_pow_pos 52
    omega
  have hlog : 52 ≤ (num / den).log2 := (Nat.le_log2 hpos).mpr h
  rw [← Nat.pow_add, shiftOf, Nat.add_sub_cancel' hlog]
  exact Nat.log2_self_le hpos

variable (hden : 0 < den)

include hden

lemma roundedOf_bounds (num : Nat) :
    let step := den * 2 ^ shiftOf num den
    num / step ≤ roundedOf num den ∧ roundedOf num den ≤ num / step + 1 ∧
      2 * (roundedOf num den * step) ≤ 2 * num + step ∧
      2 * num ≤ 2 * (roundedOf num den * step) + step :=
  divHalfEven_bounds num (Nat.mul_pos hden (Nat.two_pow_pos (shiftOf num den)))

lemma roundedOf_le (num : Nat) : roundedOf num den ≤ 2 ^ 53 := by
  have h := (roundedOf_bounds hden num).2.1
  have hlt : num / (den * 2 ^ shiftOf num den) < 2 ^ 53 := by
    rw [← Nat.div_div_eq_div_mul, Nat.div_lt_iff_lt_mul (Nat.two_pow_pos _)]
    exact quotient_lt num den
  omega

lemma le_roundedOf (h : 2 ^ 52 ≤ num / den) : 2 ^ 52 ≤ roundedOf num den := by
  have hle : 2 ^ 52 ≤ num / (den * 2 ^ shiftOf num den) := by
    rw [← Nat.div_div_eq_div_mul, Nat.le_div_iff_mul_le (Nat.two_pow_pos _)]
    exact le_quotient h
  exact Nat.le_trans hle (roundedOf_bounds hden num).1

lemma shiftOf_eq_zero_or (num : Nat) : shiftOf num den = 0 ∨ 2 ^ 52 ≤ roundedOf num den := by
  by_cases h : 2 ^ 52 ≤ num / den
  · exact .inr (le_roundedOf hden h)
  · left
    by_cases h0 : num / den = 0
    · rw [shiftOf, h0]
      rfl
    · have := (Nat.log2_lt h0).mpr (Nat.lt_of_not_le h)
      rw [shiftOf]
      omega

omit hden in
lemma ofRatio?_eq (negative : Bool) (num den : Nat) :
    ofRatio? negative num den =
      if roundedOf num den = 2 ^ 53 then ofParts? negative (2 ^ 52) (shiftOf num den + 1)
      else ofParts? negative (roundedOf num den) (shiftOf num den) := by
  simp only [ofRatio?, roundedOf, shiftOf, Nat.shiftLeft_eq, Nat.one_mul]
  rfl

omit hden in
lemma ofParts?_eq_some {negative : Bool} {significand shift : Nat} {x : Binary64}
    (h : ofParts? negative significand shift = some x) :
    x.negative = negative ∧ x.significand = significand ∧ x.shift = shift := by
  unfold ofParts? at h
  split at h
  · cases h
    exact ⟨rfl, rfl, rfl⟩
  · cases h

omit hden in
/-- What a quotient is rounded to, whether or not it was halved. -/
lemma units_of_ofRatio? {negative : Bool} {x : Binary64} (h : ofRatio? negative num den = some x) :
    x.units = roundedOf num den * 2 ^ shiftOf num den ∧
      (x.shift = shiftOf num den ∨ x.shift = shiftOf num den + 1) := by
  rw [ofRatio?_eq] at h
  split at h
  · rename_i hcarry
    obtain ⟨-, hs, hsh⟩ := ofParts?_eq_some h
    refine ⟨?_, .inr hsh⟩
    rw [units, hs, hsh, hcarry, Nat.shiftLeft_eq]
    ring
  · obtain ⟨-, hs, hsh⟩ := ofParts?_eq_some h
    exact ⟨by rw [units, hs, hsh, Nat.shiftLeft_eq], .inl hsh⟩

/-- The quotient is at most half a step of the double away from it. -/
lemma ofRatio?_bounds {negative : Bool} {x : Binary64} (h : ofRatio? negative num den = some x) :
    2 * (x.units * den) ≤ 2 * num + den * 2 ^ shiftOf num den ∧
      2 * num ≤ 2 * (x.units * den) + den * 2 ^ shiftOf num den := by
  obtain ⟨hunits, -⟩ := units_of_ofRatio? h
  obtain ⟨-, -, hlow, hhigh⟩ := roundedOf_bounds hden num
  have heq : x.units * den = roundedOf num den * (den * 2 ^ shiftOf num den) := by
    rw [hunits]
    ring
  rw [heq]
  exact ⟨hlow, hhigh⟩

/-- The quotient is at most half a unit of the last place away from the double. -/
lemma near_of_ofRatio? {negative : Bool} {x : Binary64} (h : ofRatio? negative num den = some x) :
    den * (2 * x.units) ≤ 2 * num + den * 2 ^ x.shift ∧
      2 * num ≤ den * ((2 * x.significand + 1) * 2 ^ x.shift) := by
  obtain ⟨-, hshift⟩ := units_of_ofRatio? h
  have hle : 2 ^ shiftOf num den ≤ 2 ^ x.shift :=
    Nat.pow_le_pow_right (by decide) (by omega)
  obtain ⟨hlow, hhigh⟩ := ofRatio?_bounds hden h
  constructor
  · calc den * (2 * x.units) = 2 * (x.units * den) := by ring
      _ ≤ 2 * num + den * 2 ^ shiftOf num den := hlow
      _ ≤ 2 * num + den * 2 ^ x.shift := Nat.add_le_add_left (Nat.mul_le_mul_left _ hle) _
  · calc 2 * num ≤ 2 * (x.units * den) + den * 2 ^ shiftOf num den := hhigh
      _ ≤ 2 * (x.units * den) + den * 2 ^ x.shift :=
        Nat.add_le_add_left (Nat.mul_le_mul_left _ hle) _
      _ = den * ((2 * x.significand + 1) * 2 ^ x.shift) := by
        rw [units, Nat.shiftLeft_eq]
        ring

/-- Rounding adds at most one part in `2^53`. -/
lemma units_le_of_ofRatio? {negative : Bool} {x : Binary64}
    (h : ofRatio? negative num den = some x) (hq : 2 ^ 52 ≤ num / den) :
    x.units * den * 2 ^ 53 ≤ num * (2 ^ 53 + 1) := by
  have hstep : den * 2 ^ shiftOf num den * 2 ^ 52 ≤ num := by
    calc den * 2 ^ shiftOf num den * 2 ^ 52 = den * (2 ^ 52 * 2 ^ shiftOf num den) := by ring
      _ ≤ den * (num / den) := Nat.mul_le_mul_left _ (le_quotient hq)
      _ ≤ num := Nat.mul_div_le num den
  have hb := (ofRatio?_bounds hden h).1
  calc x.units * den * 2 ^ 53 = 2 * (x.units * den) * 2 ^ 52 := by ring
    _ ≤ (2 * num + den * 2 ^ shiftOf num den) * 2 ^ 52 := Nat.mul_le_mul_right _ hb
    _ = num * 2 ^ 53 + den * 2 ^ shiftOf num den * 2 ^ 52 := by ring
    _ ≤ num * 2 ^ 53 + num := Nat.add_le_add_left hstep _
    _ = num * (2 ^ 53 + 1) := by ring

lemma two_pow_le_units {negative : Bool} {x : Binary64} (h : ofRatio? negative num den = some x)
    {k : Nat} (hk : 52 ≤ k) (hq : 2 ^ k ≤ num / den) : 2 ^ k ≤ x.units := by
  obtain ⟨hunits, -⟩ := units_of_ofRatio? h
  have hpos : num / den ≠ 0 := by
    have := Nat.two_pow_pos k
    omega
  have hlog : k ≤ (num / den).log2 := (Nat.le_log2 hpos).mpr hq
  have hshift : k - 52 ≤ shiftOf num den := by
    rw [shiftOf]
    omega
  have hlow : 2 ^ 52 ≤ num / den := Nat.le_trans (Nat.pow_le_pow_right (by decide) hk) hq
  calc 2 ^ k = 2 ^ 52 * 2 ^ (k - 52) := by rw [← Nat.pow_add, Nat.add_sub_cancel' hk]
    _ ≤ roundedOf num den * 2 ^ shiftOf num den :=
      Nat.mul_le_mul (le_roundedOf hden hlow) (Nat.pow_le_pow_right (by decide) hshift)
    _ = x.units := hunits.symm

/-! ### The largest double -/

omit hden in
/-- Half a step above the largest double, in units. -/
def bound : Nat := (2 ^ 54 - 1) * 2 ^ 2044

omit hden in
lemma two_mul_bound : 2 * bound + 2 ^ 2045 = 2 * (2 ^ 53 * 2 ^ 2045) := by
  have hpow : 2 ^ 2045 = 2 ^ 2044 * 2 := by rw [← pow_succ]
  rw [bound, hpow]
  generalize 2 ^ 2044 = c
  omega

omit hden in
lemma bound_le : bound ≤ 2 ^ 2098 := by
  calc bound ≤ 2 ^ 54 * 2 ^ 2044 := Nat.mul_le_mul_right _ (by decide)
    _ = 2 ^ 2098 := by rw [← pow_add]

lemma shiftOf_le (h : num < den * bound) : shiftOf num den ≤ 2045 := by
  have hq : num / den < 2 ^ 2098 := by
    rw [Nat.div_lt_iff_lt_mul hden, Nat.mul_comm]
    exact Nat.lt_of_lt_of_le h (Nat.mul_le_mul_left den bound_le)
  by_cases h0 : num / den = 0
  · rw [shiftOf, h0]
    exact Nat.zero_le _
  · have := (Nat.log2_lt h0).mpr hq
    rw [shiftOf]
    omega

/-- With the largest shift the significand is not rounded up to `2^53`. -/
lemma shiftOf_ne_of_carry (h : num < den * bound) (hcarry : roundedOf num den = 2 ^ 53) :
    shiftOf num den ≠ 2045 := by
  intro heq
  have hlow := (roundedOf_bounds hden num).2.2.1
  rw [hcarry, heq] at hlow
  have hsplit : 2 * (2 ^ 53 * (den * 2 ^ 2045)) = 2 * (den * bound) + den * 2 ^ 2045 := by
    have hbound := two_mul_bound
    generalize bound = b at hbound
    generalize 2 ^ 2045 = c at hbound ⊢
    calc 2 * (2 ^ 53 * (den * c)) = den * (2 * (2 ^ 53 * c)) := by ring
      _ = 2 * (den * b) + den * c := by rw [← hbound]; ring
  omega

/-- **There is a double** for every quotient below half a step above the largest. -/
lemma ofRatio?_isSome (negative : Bool) (h : num < den * bound) :
    ∃ x, ofRatio? negative num den = some x := by
  have hshift := shiftOf_le hden h
  have hle := roundedOf_le hden num
  rw [ofRatio?_eq]
  split
  · rename_i hcarry
    have hne := shiftOf_ne_of_carry hden h hcarry
    have hparts : 2 ^ 52 < 1 <<< 53 ∧ shiftOf num den + 1 ≤ 2045 ∧
        (shiftOf num den + 1 = 0 ∨ 1 <<< 52 ≤ 2 ^ 52) :=
      ⟨by decide, by omega, .inr (by decide)⟩
    exact ⟨_, dif_pos hparts⟩
  · rename_i hne
    have hparts : roundedOf num den < 1 <<< 53 ∧ shiftOf num den ≤ 2045 ∧
        (shiftOf num den = 0 ∨ 1 <<< 52 ≤ roundedOf num den) := by
      rw [Nat.one_shiftLeft, Nat.one_shiftLeft]
      exact ⟨by omega, hshift, shiftOf_eq_zero_or hden num⟩
    exact ⟨_, dif_pos hparts⟩

end Rounding

end Tipping.Binary64
