import Tipping.Binary64.Basic

/-!
Doubles scaled by powers of ten, the way numerals are read.

The digits become a double, which is multiplied or divided by the double of a power of ten. Each
step rounds to the nearest, so what is read is the nearest double when the digits and the power
are doubles themselves, and else it may be one close by. There is none beyond the largest.
-/

namespace Tipping

namespace Binary64

/-- The largest power of ten that a double comes near to is `10^308`. -/
def mostTens : Nat := 308

def powerOfTen? (n : Nat) : Option Binary64 := ofNat? false (Nat.pow 10 n)

/-- Divides by `10^n`, in steps if there is no double of that power. -/
def scaleDown? (x : Binary64) (n : Nat) : Option Binary64 :=
  if n ≤ mostTens then (powerOfTen? n).bind x.div?
  else if x.isZero then some x
  else (powerOfTen? mostTens).bind fun p => (x.div? p).bind fun y => y.scaleDown? (n - mostTens)
termination_by n
decreasing_by simp only [mostTens] at *; omega

/-- Multiplies by `10^n`. -/
def scaleUp? (x : Binary64) (n : Nat) : Option Binary64 :=
  if n ≤ mostTens then (powerOfTen? n).bind x.mul?
  else if x.isZero then some x
  else none

/-- A double close to `digits · 10^exponent`. -/
def ofScaled? (negative : Bool) (digits : Nat) (exponent : Int) : Option Binary64 :=
  (ofNat? negative digits).bind fun x =>
    match exponent with
    | .ofNat n => x.scaleUp? n
    | .negSucc n => x.scaleDown? (n + 1)

end Binary64

end Tipping
