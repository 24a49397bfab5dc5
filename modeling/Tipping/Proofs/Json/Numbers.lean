import Tipping.Proofs.Binary64.Shortest
import Tipping.Proofs.Decimal.Leading
import Tipping.Proofs.Json.RoundTrip

/-!
Every double that is written can be read, whether or not it comes back as itself.

What is read of the digits is at most half a unit of the last place above the double, and that
leaves room for the roundings of the reader unless the double is one of the three largest. Of these
the digits are known.
-/

namespace Tipping.Json

open Binary64

/-! ### The three largest doubles -/

/-- One of the three largest magnitudes. -/
def largest (negative : Bool) (k : Fin 3) : Binary64 :=
  ⟨negative, 9007199254740989 + k.val, 2045, by revert k; decide, by decide, by revert k; decide⟩

lemma eq_largest {x : Binary64} (hshift : x.shift = 2045)
    (hs : 9007199254740989 ≤ x.significand) : ∃ k, x = largest x.negative k := by
  obtain ⟨negative, significand, shift, hlt, hle, hnormal⟩ := x
  simp only at hshift hs
  have hlt' : significand < 9007199254740992 := hlt
  refine ⟨⟨significand - 9007199254740989, by omega⟩, ?_⟩
  simp only [largest, Binary64.mk.injEq, true_and]
  exact ⟨by omega, hshift⟩

lemma onGrid?_largest (negative : Bool) : ∀ k : Fin 3,
    (largest negative k).onGrid? 1366 = some ⟨17976931348623153 + 2 * k.val, 292⟩
  -- case by case, so that the units are computed once for each
  | 0 => by cases negative <;> decide +kernel
  | 1 => by cases negative <;> decide +kernel
  | 2 => by cases negative <;> decide +kernel

lemma shortest_largest (negative : Bool) (k : Fin 3) :
    (largest negative k).shortest = ⟨17976931348623153 + 2 * k.val, 292⟩ := by
  have hdigits : 10 ^ 1382 ≤ (largest negative k).exactDigits ∧
      (largest negative k).exactDigits < 10 ^ (1382 + 1) := by
    revert negative k
    decide +kernel
  have hfar (n : Fin 16) : (largest negative k).onGrid? (1074 + (308 - n.val)) = none := by
    refine onGrid?_eq_none ?_ ?_
    · revert negative k n
      decide +kernel
    · revert negative k n
      decide +kernel
  have hfound : (List.range 17).findSome? (fun n => (largest negative k).onGrid? (1382 - n)) =
      some ⟨17976931348623153 + 2 * k.val, 292⟩ := by
    have hnone : (List.range 16).findSome?
        (fun n => (largest negative k).onGrid? (1382 - n)) = none := by
      refine List.findSome?_eq_none_iff.mpr fun n hn => ?_
      have hn : n < 16 := List.mem_range.mp hn
      have hgrid : 1382 - n = 1074 + (308 - n) := by omega
      rw [hgrid]
      exact hfar ⟨n, hn⟩
    rw [List.range_succ, List.findSome?_append, hnone, Option.none_or, List.findSome?_singleton]
    exact onGrid?_largest negative k
  have hlast : ¬(17976931348623153 + 2 * k.val ≠ 0 ∧ (17976931348623153 + 2 * k.val) % 10 = 0) := by
    have := k.isLt
    omega
  rw [shortest_of_digits 1382 hdigits.1 hdigits.2 hfound, Decimal.strip, dif_neg hlast]

/-! ### All doubles -/

/-- A double is one of the three largest, or half a unit above it there is still room. -/
lemma ceiling_le_room (x : Binary64) :
    x.ceiling ≤ 2 * room ∨ ∃ k, x = largest x.negative k := by
  have hs : x.significand < 9007199254740992 := x.significand_lt
  have hle : x.shift ≤ 2045 := x.shift_le
  by_cases hshift : x.shift ≤ 2044
  · left
    calc x.ceiling ≤ 18014398509481984 * 2 ^ 2044 := ceiling_le (by omega) hshift
      _ ≤ 2 * (2 ^ 54 - 7) * 2 ^ 2044 := Nat.mul_le_mul_right _ (by decide)
      _ = 2 * room := by rw [room, Nat.mul_assoc]
  by_cases hlarge : 9007199254740989 ≤ x.significand
  · exact .inr (eq_largest (by omega) hlarge)
  · left
    have hpow : 2 ^ 2045 = 2 * 2 ^ 2044 := by rw [← pow_succ']
    calc x.ceiling ≤ (2 ^ 54 - 7) * 2 ^ 2045 := ceiling_le (by omega) hle
      _ = 2 * room := by rw [hpow, room, Nat.mul_left_comm]

/-! ### Reading what is written -/

lemma ofScaled?_isSome_of_small (negative : Bool) {digits : Nat} (hd : digits ≤ Number.digitLimit)
    {exponent : Int} (he : exponent ≤ 50) : ∃ y, ofScaled? negative digits exponent = some y := by
  have hd : digits < 2 ^ 64 := Nat.lt_succ_of_le hd
  cases exponent with
  | negSucc n => exact ofScaled?_isSome_of_neg negative hd (Int.negSucc_lt_zero n)
  | ofNat n =>
    refine ofScaled?_isSome_of_le negative hd ?_
    have hroom : 2 ^ 64 * 10 ^ 50 * perOne ≤ room := by
      calc 2 ^ 64 * 10 ^ 50 * perOne ≤ 2 ^ 231 * 2 ^ 1074 := by
            rw [perOne_eq]
            exact Nat.mul_le_mul_right _ (by decide)
        _ ≤ 2 ^ 2044 := by
            rw [← pow_add]
            exact pow_le_pow_right₀ (by decide) (by decide)
        _ ≤ room := Nat.le_mul_of_pos_left _ (by decide)
    have hpow : 10 ^ n ≤ 10 ^ 50 := Nat.pow_le_pow_right (by decide) (Int.ofNat_le.mp he)
    exact Nat.le_trans (Nat.mul_le_mul_right _ (Nat.mul_le_mul hd.le hpow)) hroom

/-- Digits that are not beyond half a unit above a double with room there can be read. -/
lemma ofScaled?_isSome_of_covers (negative : Bool) {x : Binary64} (hx : x.ceiling ≤ 2 * room)
    {d : Decimal} (hd : d.digits ≤ Number.digitLimit) (h : x.Covers d) :
    ∃ y, ofScaled? negative d.digits d.exponent = some y := by
  have hlt : d.digits < 2 ^ 64 := Nat.lt_succ_of_le hd
  obtain ⟨digits, exponent⟩ := d
  cases exponent with
  | negSucc n => exact ofScaled?_isSome_of_neg negative hlt (Int.negSucc_lt_zero n)
  | ofNat n =>
    refine ofScaled?_isSome_of_le negative hlt (Nat.le_of_mul_le_mul_left ?_ Nat.two_pos)
    refine Nat.le_trans ?_ hx
    have hcast : ((2 * (digits * 10 ^ n * perOne) : Nat) : ℚ) ≤ x.ceiling := by
      refine le_trans (le_of_eq ?_) h
      rw [Decimal.value, Int.ofNat_eq_natCast, zpow_natCast]
      push_cast
      ring
    exact_mod_cast hcast

lemma covers_taken {x : Binary64} {d : Decimal} (h : x.Covers d) (limit : Nat) :
    x.Covers (d.taken limit) := by
  rcases ht : takeFitting limit 0 (digitsOf d.digits) with ⟨taken, dropped⟩
  have hle : taken * 10 ^ dropped ≤ d.digits := by
    have htaken := takeFitting_le limit 0 (digitsOf d.digits)
    rw [ht] at htaken
    exact Nat.le_trans htaken (Nat.le_of_eq (ofDigits_digitsOf d.digits))
  have hcast : (taken * 10 ^ dropped : ℚ) ≤ d.digits := by exact_mod_cast hle
  have hvalue : (d.taken limit).value ≤ d.value := by
    calc (d.taken limit).value = taken * 10 ^ (d.exponent + dropped) := by
          simp [Decimal.taken, Decimal.value, ht]
      _ = taken * 10 ^ dropped * 10 ^ d.exponent := by
          rw [zpow_add₀ (by norm_num), zpow_natCast]
          ring
      _ ≤ d.value := mul_le_mul_of_nonneg_right hcast (zpow_nonneg (by norm_num) _)
  exact le_trans (mul_le_mul_of_nonneg_right hvalue (Nat.cast_nonneg _)) h

lemma ofScaled?_largest (negative : Bool) (k : Fin 3) :
    ∃ y, ofScaled? negative (17976931348623153 + 2 * k.val) 292 = some y := by
  refine Option.isSome_iff_exists.mp ?_
  revert negative k
  decide +kernel

/-- **Whatever is written for a double can be read**, in a layout that does not write long numbers
without a power of ten. -/
theorem doubleOf?_numeral {l : Layout} (hl : l.highest ≤ 20) (negative : Bool) (x : Binary64) :
    ∃ y, Number.doubleOf? (l.numeral negative x.shortest) = some y := by
  have hlimit : 9 ≤ Number.digitLimit := by decide
  have hdigits := Numeral.leading_digits_le Number.digitLimit (l.numeral negative x.shortest)
  unfold Number.doubleOf?
  rcases l.leading_numeral negative x.shortest hlimit with hsmall | htaken
  · exact ofScaled?_isSome_of_small _ hdigits (by omega)
  rcases ceiling_le_room x with hroom | ⟨k, hk⟩
  · have hcovers := covers_taken (covers_shortest x) Number.digitLimit
    rw [← htaken] at hcovers
    exact ofScaled?_isSome_of_covers _ hroom hdigits hcovers
  · have hshortest : x.shortest = ⟨17976931348623153 + 2 * k.val, 292⟩ := by
      rw [hk, shortest_largest]
    have hfits : x.shortest.digits ≤ Number.digitLimit := by
      have hle : 17976931348623153 + 2 * k.val ≤ 18446744073709551615 := by omega
      rwa [hshortest]
    rw [htaken, Decimal.taken_of_le hfits, hshortest]
    exact ofScaled?_largest _ k

lemma ofNumeral?_isSome {n : Numeral} (h : ∃ x, Number.doubleOf? n = some x) :
    ∃ m, Number.ofNumeral? n = some m := by
  obtain ⟨x, hx⟩ := h
  simp only [Number.ofNumeral?, hx, Option.map_some]
  split
  · generalize (if n.negative then -(ofDigits n.whole : Int) else ofDigits n.whole) = i
    split
    · exact ⟨_, rfl⟩
    · exact ⟨_, rfl⟩
  · exact ⟨_, rfl⟩

/-- The numeral of a number is read as some number. -/
lemma Number.readable (n : Number) : ∃ m, ofNumeral? n.numeral = some m := by
  cases n with
  | integer n fits => exact ⟨.integer n fits, ofNumeral?_ofInt fits⟩
  | double x => exact ofNumeral?_isSome (doubleOf?_numeral (by decide) _ x)

end Tipping.Json
