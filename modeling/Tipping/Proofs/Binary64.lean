import Mathlib.Algebra.Group.Nat.Defs
import Mathlib.Tactic.Lemma
import Tipping.Browser.Value

/-!
Small whole numbers are doubles.

A whole number below `2^53` has no more bits than a significand: shifted to the top it is the
significand, nothing is rounded, and the whole part of the double is the number again.
-/

namespace Tipping

namespace Binary64

lemma divHalfEven_mul (a : Nat) {d : Nat} (hd : 0 < d) : divHalfEven (a * d) d = a := by
  have hq : a * d / d = a := Nat.mul_div_cancel a hd
  have hr : a * d % d = 0 := Nat.mul_mod_left a d
  unfold divHalfEven
  simp only [hq, hr]
  exact if_pos (.inl (by omega))

lemma log2_significand {m : Nat} (shift : Nat) (hlow : 2 ^ 52 ≤ m) (hhigh : m < 2 ^ 53) :
    (m * 2 ^ shift).log2 = 52 + shift := by
  have hpos : 0 < m * 2 ^ shift := Nat.mul_pos (by omega) (Nat.two_pow_pos shift)
  have hl : 2 ^ 52 * 2 ^ shift ≤ m * 2 ^ shift := Nat.mul_le_mul_right _ hlow
  have hh : m * 2 ^ shift < 2 ^ 53 * 2 ^ shift :=
    Nat.mul_lt_mul_of_pos_right hhigh (Nat.two_pow_pos shift)
  rw [← Nat.pow_add] at hl hh
  rw [Nat.log2_eq_iff (by omega)]
  refine ⟨hl, ?_⟩
  rwa [show 52 + shift + 1 = 53 + shift by omega]

/-- A magnitude of 53 bits is not rounded. -/
lemma ofRatio?_significand (negative : Bool) {m shift : Nat} (hlow : 2 ^ 52 ≤ m)
    (hhigh : m < 2 ^ 53) :
    ofRatio? negative (m * 2 ^ shift) 1 = ofParts? negative m shift := by
  have hshift : (m * 2 ^ shift / 1).log2 - 52 = shift := by
    rw [Nat.div_one, log2_significand shift hlow hhigh]
    omega
  have hm : divHalfEven (m * 2 ^ shift) (1 <<< shift) = m := by
    rw [Nat.one_shiftLeft]
    exact divHalfEven_mul m (Nat.two_pow_pos shift)
  have hne : m ≠ 1 <<< 53 := by
    rw [Nat.one_shiftLeft]
    omega
  unfold ofRatio?
  simp only [hshift, hm, if_neg hne]

/-- A positive whole number below `2^53` is a double. -/
lemma ofNat?_exact (negative : Bool) {n : Nat} (hpos : 0 < n) (hn : n < 2 ^ 53) :
    ∃ x, ofNat? negative n = some x ∧ x.negative = negative ∧ x.units = n <<< 1074 := by
  have hlow : 2 ^ n.log2 ≤ n := Nat.log2_self_le (by omega)
  have hhigh : n < 2 ^ (n.log2 + 1) := Nat.lt_log2_self
  have hk : n.log2 ≤ 52 := by
    have hlt : 2 ^ n.log2 < 2 ^ 53 := Nat.lt_of_le_of_lt hlow hn
    have := (Nat.pow_lt_pow_iff_right (by omega)).mp hlt
    omega
  -- The significand has the number's bits at the top.
  have hscaled : n <<< 1074 = n * 2 ^ (52 - n.log2) * 2 ^ (n.log2 + 1022) := by
    have hexp : 1074 = 52 - n.log2 + (n.log2 + 1022) := by omega
    rw [Nat.shiftLeft_eq, Nat.mul_assoc, ← Nat.pow_add, ← hexp]
  have hm : 2 ^ 52 ≤ n * 2 ^ (52 - n.log2) := by
    have h := Nat.mul_le_mul_right (2 ^ (52 - n.log2)) hlow
    rwa [← Nat.pow_add, Nat.add_sub_cancel' hk] at h
  have hm' : n * 2 ^ (52 - n.log2) < 2 ^ 53 := by
    have h := Nat.mul_lt_mul_of_pos_right hhigh (Nat.two_pow_pos (52 - n.log2))
    rwa [← Nat.pow_add, show n.log2 + 1 + (52 - n.log2) = 53 by omega] at h
  have hparts : n * 2 ^ (52 - n.log2) < 1 <<< 53 ∧ n.log2 + 1022 ≤ 2045 ∧
      (n.log2 + 1022 = 0 ∨ 1 <<< 52 ≤ n * 2 ^ (52 - n.log2)) := by
    rw [Nat.one_shiftLeft, Nat.one_shiftLeft]
    exact ⟨hm', by omega, .inr hm⟩
  let x : Binary64 := ⟨negative, n * 2 ^ (52 - n.log2), n.log2 + 1022, hparts.1, hparts.2.1,
    hparts.2.2⟩
  have hunits : x.units = n <<< 1074 := by rw [units, Nat.shiftLeft_eq, hscaled]
  refine ⟨x, ?_, rfl, hunits⟩
  rw [ofNat?, hscaled, ofRatio?_significand negative hm hm', ofParts?, dif_pos hparts]

/-- A whole number below `2^53` is a double, whose whole part is that number. -/
theorem truncate_ofInt {n : Int} (hn : n.natAbs < 2 ^ 53) :
    ∃ x, ofInt? n = some x ∧ x.truncate = n := by
  by_cases h0 : n = 0
  · subst h0
    exact ⟨zero false, by decide +kernel, by decide +kernel⟩
  · obtain ⟨x, hx, hneg, hunits⟩ :=
      ofNat?_exact (decide (n < 0)) (n := n.natAbs) (by omega) hn
    have hshift : x.units >>> 1074 = n.natAbs := by rw [hunits, Nat.shiftLeft_shiftRight]
    refine ⟨x, hx, ?_⟩
    unfold truncate
    simp only [hshift, hneg]
    by_cases hlt : n < 0
    · rw [if_pos (by simpa using hlt)]
      omega
    · rw [if_neg (by simpa using hlt)]
      omega

end Binary64

/-- A number of 32 bits goes to the browser and comes back. -/
theorem Browser.toSigned32_ofInt (i : Signed32) :
    ∃ x, Binary64.ofInt? i.val = some x ∧ (JsNumber.finite x).toSigned32 = i := by
  obtain ⟨hlow, hhigh⟩ := i.property
  obtain ⟨x, hx, ht⟩ := Binary64.truncate_ofInt (n := i.val) (by omega)
  refine ⟨x, hx, Subtype.ext ?_⟩
  simp only [JsNumber.toSigned32, ht, IntIn.clamp]
  rw [dif_neg (by omega), dif_neg (by omega)]

end Tipping
