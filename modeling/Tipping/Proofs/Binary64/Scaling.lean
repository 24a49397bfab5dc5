import Tipping.Binary64.Scaled
import Tipping.Proofs.Binary64.Rounding

/-!
Which digits can be scaled.

Digits are scaled by rounding three times: the digits, the power of ten, and their product or
quotient. Division never leads out of range. Multiplication might where the exact product would
not, so the product has to stay a little below the largest double, by what two roundings add.
-/

namespace Tipping.Binary64

/-- The units that make one. -/
def perOne : Nat := 1 <<< 1074

lemma perOne_eq : perOne = 2 ^ 1074 := by
  have hshift (k : Nat) : 1 <<< k = 2 ^ k := Nat.one_shiftLeft k
  rw [perOne, hshift]

lemma perOne_pos : 0 < perOne := by
  rw [perOne_eq]
  exact pow_pos (by decide) 1074

lemma shiftLeft_perOne (n : Nat) : n <<< 1074 = n * perOne := by
  rw [Nat.shiftLeft_eq, perOne, Nat.one_shiftLeft]

lemma ofNat?_eq (negative : Bool) (n : Nat) :
    ofNat? negative n = ofRatio? negative (n * perOne) 1 := by
  rw [ofNat?, shiftLeft_perOne]

lemma mul?_eq (x y : Binary64) :
    x.mul? y = ofRatio? (x.negative != y.negative) (x.units * y.units) perOne := by
  rw [mul?, perOne]

lemma div?_eq (x y : Binary64) :
    x.div? y = ofRatio? (x.negative != y.negative) (x.units * perOne) y.units := by
  rw [div?, shiftLeft_perOne]

/-- `10^308` is the largest power of ten within the doubles. -/
lemma mostTens_bounds :
    10 ^ mostTens * perOne < bound ∧ bound < 10 ^ (mostTens + 1) * perOne := by
  decide +kernel

lemma units_add_le (x : Binary64) {k : Nat} (hk : x.shift ≤ k) :
    x.units + 2 ^ k ≤ 2 ^ 53 * 2 ^ k := by
  rw [units, Nat.shiftLeft_eq]
  calc x.significand * 2 ^ x.shift + 2 ^ k ≤ x.significand * 2 ^ k + 2 ^ k :=
        Nat.add_le_add_right (Nat.mul_le_mul_left _ (Nat.pow_le_pow_right (by decide) hk)) _
    _ = (x.significand + 1) * 2 ^ k := (Nat.succ_mul ..).symm
    _ ≤ 2 ^ 53 * 2 ^ k := Nat.mul_le_mul_right _ x.significand_lt

lemma units_lt_bound (x : Binary64) : x.units < bound := by
  have hle := x.units_add_le x.shift_le
  have hbound := two_mul_bound
  have hpos : 0 < 2 ^ 2045 := pow_pos (by decide) 2045
  generalize 2 ^ 53 * 2 ^ 2045 = m at hle hbound
  generalize 2 ^ 2045 = c at hle hbound hpos
  generalize bound = b at hbound ⊢
  omega

/-! ### Whole numbers -/

section Whole

variable {negative : Bool} {n : Nat} {x : Binary64}

lemma ofNat?_isSome (negative : Bool) (h : n * perOne < bound) :
    ∃ x, ofNat? negative n = some x := by
  rw [ofNat?_eq]
  exact ofRatio?_isSome Nat.one_pos negative (by rwa [Nat.one_mul])

variable (hx : ofNat? negative n = some x)

include hx

lemma units_ofNat?_zero (hn : n = 0) : x.units = 0 := by
  rw [ofNat?_eq, hn, Nat.zero_mul] at hx
  have hle := (ofRatio?_bounds Nat.one_pos hx).1
  have hshift : shiftOf 0 1 = 0 := by
    rw [shiftOf, Nat.zero_div, Nat.log2_zero]
  rw [hshift] at hle
  omega

/-- Rounding a whole number adds at most one part in `2^53`. -/
lemma units_ofNat?_le : x.units * 2 ^ 53 ≤ n * perOne * (2 ^ 53 + 1) := by
  rcases Nat.eq_zero_or_pos n with hn | hn
  · rw [units_ofNat?_zero hx hn, Nat.zero_mul]
    exact Nat.zero_le _
  rw [ofNat?_eq] at hx
  have hone : 2 ^ 52 ≤ perOne := by
    rw [perOne_eq]
    exact pow_le_pow_right₀ (by decide) (by decide)
  have hq : 2 ^ 52 ≤ n * perOne / 1 := by
    rw [Nat.div_one]
    exact Nat.le_trans hone (Nat.le_mul_of_pos_left perOne hn)
  have hle := units_le_of_ofRatio? Nat.one_pos hx hq
  rwa [Nat.mul_one] at hle

lemma perOne_le_units (hn : 0 < n) : perOne ≤ x.units := by
  rw [ofNat?_eq] at hx
  have hq : 2 ^ 1074 ≤ n * perOne / 1 := by
    rw [Nat.div_one, ← perOne_eq]
    exact Nat.le_mul_of_pos_left perOne hn
  exact Nat.le_trans (Nat.le_of_eq perOne_eq) (two_pow_le_units Nat.one_pos hx (by decide) hq)

end Whole

lemma powerOfTen?_isSome {n : Nat} (hn : n ≤ mostTens) :
    ∃ p, powerOfTen? n = some p ∧ perOne ≤ p.units ∧
      p.units * 2 ^ 53 ≤ 10 ^ n * perOne * (2 ^ 53 + 1) := by
  have hpow : 10 ^ n ≤ 10 ^ mostTens := Nat.pow_le_pow_right (by decide) hn
  obtain ⟨p, hp⟩ := ofNat?_isSome false
    (Nat.lt_of_le_of_lt (Nat.mul_le_mul_right perOne hpow) mostTens_bounds.1)
  have hpos : 0 < 10 ^ n := Nat.pow_pos (by decide)
  exact ⟨p, hp, perOne_le_units hp hpos, units_ofNat?_le hp⟩

/-! ### Division -/

/-- A quotient by one or more is not beyond the doubles. -/
lemma div?_isSome (x : Binary64) {p : Binary64} (hp : perOne ≤ p.units) :
    ∃ z, x.div? p = some z := by
  have hpos : 0 < p.units := Nat.lt_of_lt_of_le perOne_pos hp
  rw [div?_eq]
  refine ofRatio?_isSome hpos _ ?_
  calc x.units * perOne ≤ x.units * p.units := Nat.mul_le_mul_left _ hp
    _ < bound * p.units := Nat.mul_lt_mul_of_pos_right (units_lt_bound x) hpos
    _ = p.units * bound := Nat.mul_comm ..

lemma scaleDown?_isSome (x : Binary64) (n : Nat) : ∃ y, x.scaleDown? n = some y := by
  induction n using Nat.strongRecOn generalizing x with
  | _ n ih =>
    rw [scaleDown?]
    split
    · obtain ⟨p, hp, hone, -⟩ := powerOfTen?_isSome ‹_›
      rw [hp]
      exact div?_isSome x hone
    · split
      · exact ⟨x, rfl⟩
      · obtain ⟨p, hp, hone, -⟩ := powerOfTen?_isSome (Nat.le_refl mostTens)
        obtain ⟨y, hy⟩ := div?_isSome x hone
        rw [hp, Option.bind_some, hy]
        exact ih (n - mostTens) (by simp only [mostTens] at *; omega) y

/-! ### Multiplication -/

/-- How large a product may be so that it can be rounded three times. -/
def room : Nat := (2 ^ 54 - 7) * 2 ^ 2044

lemma room_le_bound : room ≤ bound := Nat.mul_le_mul_right _ (by decide)

/-- Two roundings do not lead out of the room there is. -/
lemma mul?_isSome_of_le {x y : Binary64} {a b : Nat}
    (hx : x.units * 2 ^ 53 ≤ a * perOne * (2 ^ 53 + 1))
    (hy : y.units * 2 ^ 53 ≤ b * perOne * (2 ^ 53 + 1)) (h : a * b * perOne ≤ room) :
    ∃ z, x.mul? y = some z := by
  rw [mul?_eq]
  refine ofRatio?_isSome perOne_pos _ (Nat.lt_of_mul_lt_mul_right (a := 2 ^ 106) ?_)
  have hroom : room * (2 ^ 53 + 1) ^ 2 < bound * 2 ^ 106 := by
    have hpos : 0 < 2 ^ 2044 := pow_pos (by decide) 2044
    rw [room, bound]
    generalize 2 ^ 2044 = c at hpos ⊢
    omega
  calc x.units * y.units * 2 ^ 106 = (x.units * 2 ^ 53) * (y.units * 2 ^ 53) := by ring
    _ ≤ (a * perOne * (2 ^ 53 + 1)) * (b * perOne * (2 ^ 53 + 1)) := Nat.mul_le_mul hx hy
    _ = perOne * (a * b * perOne * (2 ^ 53 + 1) ^ 2) := by ring
    _ ≤ perOne * (room * (2 ^ 53 + 1) ^ 2) :=
      Nat.mul_le_mul_left _ (Nat.mul_le_mul_right _ h)
    _ < perOne * (bound * 2 ^ 106) := Nat.mul_lt_mul_of_pos_left hroom perOne_pos
    _ = perOne * bound * 2 ^ 106 := by ring

/-! ### Digits -/

lemma digits_isSome (negative : Bool) {digits : Nat} (hd : digits < 2 ^ 64) :
    ∃ x, ofNat? negative digits = some x := by
  have hlt : digits < 10 ^ mostTens :=
    Nat.lt_of_lt_of_le (Nat.lt_trans hd (by decide : 2 ^ 64 < 10 ^ 20))
      (Nat.pow_le_pow_right (by decide) (by decide))
  exact ofNat?_isSome negative
    (Nat.lt_trans (Nat.mul_lt_mul_of_pos_right hlt perOne_pos) mostTens_bounds.1)

/-- Digits of 64 bits can be scaled down by any power of ten. -/
lemma ofScaled?_isSome_of_neg (negative : Bool) {digits : Nat} (hd : digits < 2 ^ 64)
    {exponent : Int} (he : exponent < 0) : ∃ x, ofScaled? negative digits exponent = some x := by
  obtain ⟨x, hx⟩ := digits_isSome negative hd
  rw [ofScaled?, hx]
  cases exponent with
  | ofNat n => exact absurd he (by simp)
  | negSucc n => exact scaleDown?_isSome x (n + 1)

lemma isZero_of_units {x : Binary64} (h : x.units = 0) : x.isZero = true := by
  rw [units, Nat.shiftLeft_eq] at h
  have hs : x.significand = 0 :=
    (Nat.mul_eq_zero.mp h).resolve_right (Nat.two_pow_pos x.shift).ne'
  rw [isZero, hs]
  rfl

/-- Only zero can be scaled by more than the largest power of ten. -/
lemma eq_zero_of_mostTens_lt {digits n : Nat} (h : digits * 10 ^ n * perOne ≤ room)
    (hn : mostTens < n) : digits = 0 := by
  by_contra hne
  have hle : 10 ^ (mostTens + 1) ≤ digits * 10 ^ n :=
    Nat.le_trans (Nat.pow_le_pow_right (by decide) hn)
      (Nat.le_mul_of_pos_left _ (Nat.pos_of_ne_zero hne))
  have hlt : room < 10 ^ (mostTens + 1) * perOne :=
    Nat.lt_of_le_of_lt room_le_bound mostTens_bounds.2
  exact absurd (Nat.le_trans (Nat.mul_le_mul_right perOne hle) h) (Nat.not_le.mpr hlt)

/-- Digits of 64 bits can be scaled up to a product that leaves room for rounding. -/
lemma ofScaled?_isSome_of_le (negative : Bool) {digits n : Nat} (hd : digits < 2 ^ 64)
    (h : digits * 10 ^ n * perOne ≤ room) : ∃ x, ofScaled? negative digits n = some x := by
  obtain ⟨x, hx⟩ := digits_isSome negative hd
  have hscale : ofScaled? negative digits n = x.scaleUp? n := by
    rw [ofScaled?, hx]
    rfl
  rw [hscale, scaleUp?]
  split
  · obtain ⟨p, hp, -, hle⟩ := powerOfTen?_isSome ‹_›
    rw [hp]
    exact mul?_isSome_of_le (units_ofNat?_le hx) hle h
  · rename_i hn
    have hzero := units_ofNat?_zero hx (eq_zero_of_mostTens_lt h (Nat.lt_of_not_le hn))
    exact ⟨x, if_pos (isZero_of_units hzero)⟩

end Tipping.Binary64
