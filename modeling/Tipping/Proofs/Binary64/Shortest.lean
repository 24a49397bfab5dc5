import Mathlib.Algebra.Order.Field.Power
import Mathlib.Algebra.Order.Field.Rat
import Mathlib.Tactic.FieldSimp
import Tipping.Binary64.Shortest
import Tipping.Proofs.Binary64.Scaling
import Tipping.Proofs.Decimal.Leading

/-!
How far the shortest decimal of a double is from it.

Whatever reads back as a double, or is the double exactly, is above it by half a unit of the last
place at most; and dropping zeros at the end changes nothing.
-/

namespace Tipping

/-- The number that a decimal stands for. -/
def Decimal.value (d : Decimal) : ℚ := d.digits * (10 : ℚ) ^ d.exponent

lemma Decimal.value_strip (d : Decimal) : d.strip.value = d.value := by
  fun_induction strip d with
  | case1 d h ih =>
    have hdigits : (d.digits : ℚ) = (d.digits / 10 : Nat) * 10 := by
      have hnat : d.digits = d.digits / 10 * 10 := by omega
      exact_mod_cast hnat
    rw [ih, value, value, hdigits, zpow_add_one₀ (by norm_num)]
    ring
  | case2 d h => rfl

namespace Binary64

/-- Half a unit of the last place above the double, in half units. -/
def ceiling (x : Binary64) : Nat := (2 * x.significand + 1) * 2 ^ x.shift

/-- The decimal is at most half a unit of the last place above the double. -/
def Covers (x : Binary64) (d : Decimal) : Prop := d.value * (2 * perOne : Nat) ≤ x.ceiling

lemma covers_strip {x : Binary64} {d : Decimal} (h : x.Covers d) : x.Covers d.strip := by
  rw [Covers, Decimal.value_strip]
  exact h

lemma covers_zero (x : Binary64) (exponent : Int) : x.Covers ⟨0, exponent⟩ := by
  simp [Covers, Decimal.value]

/-- Digits that are multiplied. -/
lemma covers_ofNat {x : Binary64} {digits e : Nat}
    (h : 2 * (digits * 10 ^ e * perOne) ≤ x.ceiling) : x.Covers ⟨digits, e⟩ := by
  have hcast : ((2 * (digits * 10 ^ e * perOne) : Nat) : ℚ) ≤ x.ceiling := by exact_mod_cast h
  refine le_trans (le_of_eq ?_) hcast
  rw [Decimal.value, zpow_natCast]
  push_cast
  ring

/-- Digits that are divided. -/
lemma covers_negSucc {x : Binary64} {digits e : Nat}
    (h : 2 * (digits * perOne) ≤ 10 ^ (e + 1) * x.ceiling) : x.Covers ⟨digits, .negSucc e⟩ := by
  have hcast : ((2 * (digits * perOne) : Nat) : ℚ) ≤ (10 ^ (e + 1) * x.ceiling : Nat) := by
    exact_mod_cast h
  have hpos : (0 : ℚ) < 10 ^ (e + 1) := by positivity
  rw [Covers, Decimal.value, zpow_negSucc, mul_assoc, inv_mul_eq_div, ← mul_div_assoc,
    div_le_iff₀ hpos]
  push_cast at hcast ⊢
  linarith

lemma ceiling_pos (x : Binary64) : 0 < x.ceiling :=
  Nat.mul_pos (Nat.succ_pos _) (Nat.two_pow_pos _)

lemma ceiling_le {x : Binary64} {a k : Nat} (ha : 2 * x.significand + 1 ≤ a) (hk : x.shift ≤ k) :
    x.ceiling ≤ a * 2 ^ k :=
  Nat.mul_le_mul ha (Nat.pow_le_pow_right (by decide) hk)

/-- What is read as zero for being far below the least positive double is below half of that. -/
lemma far_below {digits e c : Nat} (h : digits.log2 + 400 < e) (hc : 0 < c) :
    2 * (digits * perOne) ≤ 10 ^ (e + 1) * c := by
  have hdigits : digits ≤ 2 ^ (digits.log2 + 1) := Nat.le_of_lt Nat.lt_log2_self
  calc 2 * (digits * perOne) ≤ 2 * (2 ^ (digits.log2 + 1) * 2 ^ 1074) := by
        rw [perOne_eq]
        exact Nat.mul_le_mul_left _ (Nat.mul_le_mul_right _ hdigits)
    _ = 2 ^ (digits.log2 + 1076) := by rw [← pow_add, ← pow_succ']
    _ ≤ 2 ^ (3 * (e + 1)) := Nat.pow_le_pow_right (by decide) (by omega)
    _ = 8 ^ (e + 1) := by rw [pow_mul]; rfl
    _ ≤ 10 ^ (e + 1) := Nat.pow_le_pow_left (by decide) _
    _ ≤ 10 ^ (e + 1) * c := Nat.le_mul_of_pos_right _ hc

/-- What is read as a double is at most half a unit of the last place away from it. -/
lemma near_of_readsBack {x : Binary64} {digits e : Nat} (h : x.readsBack ⟨digits, e⟩) :
    2 * x.units ≤ 2 * (digits * 10 ^ e * perOne) + 2 ^ x.shift ∧
      2 * (digits * 10 ^ e * perOne) ≤ x.ceiling := by
  have h : ofDecimal? x.negative digits e = some x := of_decide_eq_true h
  simp only [ofDecimal?] at h
  split at h
  · rename_i hzero
    have hunits : x.units = 0 := by rw [← Option.some.inj h]; rfl
    simp [hunits, hzero]
  · split at h
    · cases h
    · rw [shiftLeft_perOne] at h
      have hnear := near_of_ofRatio? Nat.one_pos h
      rw [Nat.one_mul, Nat.one_mul, Nat.one_mul] at hnear
      exact hnear

/-- A grid has no answer if both neighbours on it are further away. -/
lemma onGrid?_eq_none {x : Binary64} {e : Nat}
    (hbelow : 2 * (x.exactDigits / Nat.pow 10 (1074 + e) * 10 ^ e * perOne) + 2 ^ x.shift <
      2 * x.units)
    (habove : x.ceiling <
      2 * ((x.exactDigits / Nat.pow 10 (1074 + e) + 1) * 10 ^ e * perOne)) :
    x.onGrid? (1074 + e) = none := by
  have hexponent : ((1074 + e : Nat) : Int) - 1074 = e := by omega
  have hnot (digits : Nat) (h : ¬(x.readsBack ⟨digits, e⟩ = true)) :
      x.readsBack ⟨digits, e⟩ = false := Bool.eq_false_iff.mpr h
  have hb := hnot _ fun h => absurd (near_of_readsBack h).1 (Nat.not_le.mpr hbelow)
  have ha := hnot _ fun h => absurd (near_of_readsBack h).2 (Nat.not_le.mpr habove)
  simp only [onGrid?, hexponent, hb, ha]
  rfl

/-- What is read as a double is at most half a unit of the last place above it. -/
lemma covers_of_readsBack {x : Binary64} {d : Decimal} (hback : x.readsBack d) : x.Covers d := by
  obtain ⟨digits, exponent⟩ := d
  have h : ofDecimal? x.negative digits exponent = some x := of_decide_eq_true hback
  unfold ofDecimal? at h
  split at h
  · rename_i hzero
    subst hzero
    exact covers_zero x exponent
  · cases exponent with
    | ofNat e => exact covers_ofNat (near_of_readsBack hback).2
    | negSucc e =>
      simp only at h
      split at h
      · exact covers_negSucc (far_below ‹_› (ceiling_pos x))
      · rw [shiftLeft_perOne] at h
        exact covers_negSucc (near_of_ofRatio? (Nat.pow_pos (by decide)) h).2

lemma covers_exact (x : Binary64) : x.Covers ⟨x.exactDigits, -1074⟩ := by
  have hten : Nat.pow 5 1074 * perOne = 10 ^ 1074 := by
    rw [perOne_eq]
    generalize 1074 = k
    exact (Nat.mul_pow 5 2 k).symm
  refine covers_negSucc (e := 1073) ?_
  simp only [Nat.reduceAdd]
  calc 2 * (x.exactDigits * perOne) = 2 * (x.units * (Nat.pow 5 1074 * perOne)) := by
        rw [exactDigits, Nat.mul_assoc]
    _ = 10 ^ 1074 * (2 * x.significand * 2 ^ x.shift) := by
        rw [hten, units, Nat.shiftLeft_eq]
        generalize 10 ^ 1074 = t
        ring
    _ ≤ 10 ^ 1074 * x.ceiling :=
        Nat.mul_le_mul_left _ (Nat.mul_le_mul_right _ (Nat.le_succ _))

lemma covers_onGrid? {x : Binary64} {dropped : Nat} {d : Decimal}
    (h : x.onGrid? dropped = some d) : x.Covers d := by
  apply covers_of_readsBack
  simp only [onGrid?] at h
  split at h
  · split at h
    · rename_i hbelow habove
      cases h
      exact habove.1
    · rename_i hbelow _
      cases h
      exact hbelow
  · split at h
    · rename_i habove
      cases h
      exact habove
    · cases h

/-- The digits that are written for a double are at most half a unit of the last place above. -/
lemma covers_shortest (x : Binary64) : x.Covers x.shortest := by
  rw [shortest]
  refine covers_strip ?_
  cases hfound : (List.range 17).findSome?
      fun n => x.onGrid? ((digitsOf x.exactDigits).length - (n + 1)) with
  | none => exact covers_exact x
  | some d =>
    obtain ⟨n, -, hn⟩ := List.exists_of_findSome?_eq_some hfound
    exact covers_onGrid? hn

/-- Of what is written for a double, no digit stands for more than `10^320`. -/
lemma lead_shortest_le {x : Binary64} (h : x.shortest.digits ≠ 0) :
    x.shortest.exponent + (digitsOf x.shortest.digits).length - 1 ≤ 320 := by
  have hlength : 0 < (digitsOf x.shortest.digits).length :=
    List.length_pos_iff.mpr (digitsOf_ne_nil _)
  obtain ⟨k, hk⟩ := Nat.exists_eq_add_of_lt hlength
  have hlead : x.shortest.exponent + (digitsOf x.shortest.digits).length - 1 =
      k + x.shortest.exponent := by
    omega
  have hdigits : (10 : ℚ) ^ k ≤ x.shortest.digits := by
    have hle := pow_length_le h
    rw [hk] at hle
    exact_mod_cast (by simpa using hle : 10 ^ k ≤ x.shortest.digits)
  have hvalue : (10 : ℚ) ^ (k + x.shortest.exponent) ≤ x.shortest.value := by
    rw [zpow_add₀ (by norm_num), zpow_natCast]
    exact mul_le_mul_of_nonneg_right hdigits (zpow_nonneg (by norm_num) _)
  have hceiling : x.ceiling ≤ 2 ^ 1024 * (2 * perOne) := by
    have hs : x.significand < 2 ^ 53 := x.significand_lt
    calc x.ceiling ≤ 2 ^ 54 * 2 ^ 2045 := ceiling_le (by omega) x.shift_le
      _ = 2 ^ 1024 * (2 * perOne) := by
          rw [perOne_eq, ← pow_add, ← pow_succ', ← pow_add]
  have hbelow : x.shortest.value ≤ 2 ^ 1024 := by
    have hpos : (0 : ℚ) < (2 * perOne : Nat) :=
      Nat.cast_pos.mpr (Nat.mul_pos Nat.two_pos perOne_pos)
    have hcast : (x.ceiling : ℚ) ≤ (2 ^ 1024 * (2 * perOne) : Nat) := Nat.cast_le.mpr hceiling
    rw [Nat.cast_mul, Nat.cast_pow] at hcast
    exact le_of_mul_le_mul_right (le_trans (covers_shortest x) hcast) hpos
  have hten : (2 : ℚ) ^ 1024 ≤ 10 ^ (320 : Int) := by
    calc (2 : ℚ) ^ 1024 = (2 ^ 64) ^ 16 := by rw [← pow_mul]
      _ ≤ (10 ^ 20) ^ 16 := pow_le_pow_left₀ (by norm_num) (by norm_num) 16
      _ = 10 ^ (320 : Int) := by rw [← pow_mul]; rfl
  rw [hlead]
  exact (zpow_le_zpow_iff_right₀ (by norm_num)).mp (le_trans (le_trans hvalue hbelow) hten)

end Binary64

end Tipping
