import Mathlib.Tactic.Linarith
import Mathlib.Tactic.Ring
import Tipping.Proofs.Decimal.Numeral

/-!
The leading digits of what is written.

A reader with limited room for digits takes those that fit. What it takes is never more than what
is written: of a number that is written with a power of ten it takes a part, and a number written
without one is small.
-/

namespace Tipping

/-- The number that digits write after others. -/
def ofDigitsFrom (n : Nat) (ds : List Digit) : Nat := ds.foldl (fun n d => 10 * n + d.val) n

lemma le_ofDigitsFrom (n : Nat) (ds : List Digit) : n * 10 ^ ds.length ≤ ofDigitsFrom n ds := by
  induction ds generalizing n with
  | nil => simp [ofDigitsFrom]
  | cons d ds ih =>
    calc n * 10 ^ (ds.length + 1) = 10 * n * 10 ^ ds.length := by ring
      _ ≤ (10 * n + d.val) * 10 ^ ds.length := Nat.mul_le_mul_right _ (Nat.le_add_right _ _)
      _ ≤ ofDigitsFrom (10 * n + d.val) ds := ih _

lemma takeFitting_le (limit n : Nat) (ds : List Digit) :
    (takeFitting limit n ds).1 * 10 ^ (takeFitting limit n ds).2 ≤ ofDigitsFrom n ds := by
  induction ds generalizing n with
  | nil => simp [takeFitting, ofDigitsFrom]
  | cons d ds ih =>
    rw [takeFitting]
    split
    · exact ih _
    · exact le_ofDigitsFrom n (d :: ds)

lemma takeFitting_fst_le {limit n : Nat} (hn : n ≤ limit) (ds : List Digit) :
    (takeFitting limit n ds).1 ≤ limit := by
  induction ds generalizing n with
  | nil => exact hn
  | cons d ds ih =>
    rw [takeFitting]
    split
    · exact ih ‹_›
    · exact hn

lemma takeFitting_snd_le (limit n : Nat) (ds : List Digit) :
    (takeFitting limit n ds).2 ≤ ds.length := by
  induction ds generalizing n with
  | nil => exact Nat.le_refl _
  | cons d ds ih =>
    rw [takeFitting]
    split
    · exact Nat.le_succ_of_le (ih _)
    · exact Nat.le_refl _

/-- Digits that fit are all taken. -/
lemma takeFitting_of_le {limit n : Nat} {ds : List Digit} (h : ofDigitsFrom n ds ≤ limit) :
    takeFitting limit n ds = (ofDigitsFrom n ds, 0) := by
  induction ds generalizing n with
  | nil => rfl
  | cons d ds ih =>
    have hfit : 10 * n + d.val ≤ limit := by
      have hle := le_ofDigitsFrom (10 * n + d.val) ds
      have hpos : 0 < 10 ^ ds.length := Nat.pow_pos (by decide)
      exact Nat.le_trans (Nat.le_trans (Nat.le_mul_of_pos_right _ hpos) hle) h
    rw [takeFitting, if_pos hfit]
    exact ih h

namespace Numeral

lemma leading_digits_le (limit : Nat) (n : Numeral) : (n.leading limit).digits ≤ limit :=
  takeFitting_fst_le (takeFitting_fst_le (Nat.zero_le _) _) _

/-- Beside the power of ten, the digits before the point are all that count. -/
lemma leading_exponent_le_add (limit : Nat) (n : Numeral) :
    (n.leading limit).exponent ≤ n.power.getD 0 + n.whole.length := by
  have hwhole := takeFitting_snd_le limit 0 n.whole
  have hfraction := takeFitting_snd_le limit (takeFitting limit 0 n.whole).1 n.fraction
  simp only [leading]
  omega

lemma leading_exponent_le (limit : Nat) {n : Numeral} (h : n.power = none) :
    (n.leading limit).exponent ≤ n.whole.length := by
  simpa [h] using n.leading_exponent_le_add limit

end Numeral

lemma first_digitsOf_ne_zero {n : Nat} (hn : n ≠ 0) {d : Digit} {ds : List Digit}
    (h : digitsOf n = d :: ds) : d.val ≠ 0 := fun hd =>
  hn (eq_zero_of_digitsOf (h.trans (congrArg (· :: ds) (Fin.ext hd : d = 0))))

lemma le_ofDigits_cons (d : Digit) (ds : List Digit) :
    d.val * 10 ^ ds.length ≤ ofDigits (d :: ds) := by
  simpa [ofDigits, ofDigitsFrom] using le_ofDigitsFrom d.val ds

/-- A number is at least what its first digit stands for. -/
lemma pow_length_le {n : Nat} (hn : n ≠ 0) : 10 ^ ((digitsOf n).length - 1) ≤ n := by
  cases hds : digitsOf n with
  | nil => exact absurd hds (digitsOf_ne_nil n)
  | cons first rest =>
    have hvalue : ofDigits (first :: rest) = n := hds ▸ ofDigits_digitsOf n
    calc 10 ^ rest.length ≤ first.val * 10 ^ rest.length :=
          Nat.le_mul_of_pos_left _ (Nat.pos_of_ne_zero (first_digitsOf_ne_zero hn hds))
      _ ≤ n := hvalue ▸ le_ofDigits_cons first rest

lemma ofDigits_ne_zero {n : Nat} (hn : n ≠ 0) {ds : List Digit} (hne : ds ≠ [])
    (h : ds <+: digitsOf n) : ofDigits ds ≠ 0 := by
  cases ds with
  | nil => exact absurd rfl hne
  | cons first rest =>
    obtain ⟨after, hafter⟩ := h
    have hfirst := first_digitsOf_ne_zero hn hafter.symm
    exact Nat.ne_of_gt (Nat.lt_of_lt_of_le
      (Nat.mul_pos (Nat.pos_of_ne_zero hfirst) (Nat.pow_pos (by decide)))
      (le_ofDigits_cons first rest))

/-- The first of the digits of a number are at most a tenth of it, if not all are there. -/
lemma ten_mul_ofDigits_le {n : Nat} {ds : List Digit} (h : ds <+: digitsOf n)
    (hne : ds ≠ digitsOf n) : 10 * ofDigits ds ≤ n := by
  obtain ⟨rest, hrest⟩ := h
  have hpos : rest.length ≠ 0 := fun hr =>
    hne (by rw [← hrest, List.eq_nil_of_length_eq_zero hr, List.append_nil])
  have hvalue : ofDigitsFrom (ofDigits ds) rest = n := by
    rw [← ofDigits_digitsOf n, ← hrest, ofDigits, ofDigits, ofDigitsFrom, List.foldl_append]
  calc 10 * ofDigits ds ≤ ofDigits ds * 10 ^ rest.length := by
        rw [Nat.mul_comm]
        exact Nat.mul_le_mul_left _ (Nat.le_self_pow hpos 10)
    _ ≤ n := hvalue ▸ le_ofDigitsFrom (ofDigits ds) rest

/-- What is written without a power of ten has few digits before the point, and what is written
with one has a single digit there. -/
lemma Layout.places_numeral (l : Layout) (negative : Bool) (d : Decimal) :
    let n := l.numeral negative d
    let ds := digitsOf d.digits
    (n.power = none ∧ n.whole.length ≤ max 1 (l.highest + 1)) ∨
      (d.digits ≠ 0 ∧
        n = ⟨negative, ds.take 1, ds.drop 1, some (d.exponent + ds.length - 1)⟩) := by
  have hlength : (digitsOf d.digits).length ≠ 0 := by simp [digitsOf_ne_nil]
  simp only [numeral]
  split
  · exact .inl ⟨rfl, by simp only [List.length_singleton]; omega⟩
  split
  · split
    · exact .inl ⟨rfl, by simp only [List.length_singleton]; omega⟩
    · refine .inl ⟨rfl, ?_⟩
      simp only [List.length_append, List.length_take, List.length_replicate]
      omega
  · exact .inr ⟨‹_›, rfl⟩

/-- The leading digits of a number, as far as they fit, in their place. -/
def Decimal.taken (limit : Nat) (d : Decimal) : Decimal :=
  let (digits, dropped) := takeFitting limit 0 (digitsOf d.digits)
  ⟨digits, d.exponent + dropped⟩

lemma Decimal.taken_of_le {limit : Nat} {d : Decimal} (h : d.digits ≤ limit) :
    d.taken limit = d := by
  have hfits : takeFitting limit 0 (digitsOf d.digits) = (d.digits, 0) := by
    have hdigits : ofDigitsFrom 0 (digitsOf d.digits) = d.digits := ofDigits_digitsOf d.digits
    rw [takeFitting_of_le (hdigits.symm ▸ h), hdigits]
  simp [taken, hfits]

/-- What is taken of a number that is written is small, or a part of its digits in their place. -/
lemma Layout.leading_numeral (l : Layout) (negative : Bool) (d : Decimal) {limit : Nat}
    (hlimit : 9 ≤ limit) :
    ((l.numeral negative d).leading limit).exponent ≤ max 1 (l.highest + 1) ∨
      (l.numeral negative d).leading limit = d.taken limit := by
  rcases l.places_numeral negative d with ⟨hpower, hplaces⟩ | ⟨-, hn⟩
  · exact .inl (Int.le_trans (Numeral.leading_exponent_le limit hpower) hplaces)
  cases hds : digitsOf d.digits with
  | nil => exact absurd hds (digitsOf_ne_nil _)
  | cons first rest =>
    right
    have hfirst : takeFitting limit 0 [first] = (first.val, 0) := by
      rw [takeFitting, if_pos (by have := first.isLt; omega), takeFitting]
      simp
    have hrest : takeFitting limit 0 (first :: rest) = takeFitting limit first.val rest := by
      rw [takeFitting, if_pos (by have := first.isLt; omega)]
      simp
    simp only [hn, hds, Numeral.leading, Decimal.taken, List.take_succ_cons, List.take_zero,
      List.drop_succ_cons, List.drop_zero, hfirst, hrest, Option.getD_some, List.length_cons]
    congr 1
    push_cast
    omega

end Tipping
