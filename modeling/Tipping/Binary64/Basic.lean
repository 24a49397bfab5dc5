/-!
Finite doubles, exactly.

A magnitude is counted in units of `2^-1074`, the least positive double, so it is a natural
number `significand · 2^shift`. Each has one representation: the significand has 53 bits
unless the shift is zero. A ratio of natural numbers is rounded to the nearest magnitude, a
half to the even significand, and there is none for what lies beyond the largest.
-/

namespace Tipping

structure Binary64 where
  negative : Bool
  significand : Nat
  shift : Nat
  significand_lt : significand < 1 <<< 53
  shift_le : shift ≤ 2045
  normal : shift = 0 ∨ 1 <<< 52 ≤ significand
  deriving DecidableEq, Repr

namespace Binary64

def zero (negative : Bool) : Binary64 :=
  ⟨negative, 0, 0, by decide, by decide, .inl rfl⟩

instance : Inhabited Binary64 := ⟨zero false⟩

/-- The magnitude in units of `2^-1074`. -/
def units (x : Binary64) : Nat := x.significand <<< x.shift

def isZero (x : Binary64) : Bool := x.significand = 0

/-- The quotient to the nearest whole number, a half to the even one. -/
def divHalfEven (num den : Nat) : Nat :=
  let q := num / den
  let r := num % den
  if 2 * r < den ∨ (2 * r = den ∧ q % 2 = 0) then q else q + 1

def ofParts? (negative : Bool) (significand shift : Nat) : Option Binary64 :=
  if h : significand < 1 <<< 53 ∧ shift ≤ 2045 ∧ (shift = 0 ∨ 1 <<< 52 ≤ significand) then
    some ⟨negative, significand, shift, h.1, h.2.1, h.2.2⟩
  else none

/-- The magnitude nearest to `num / den` units. The shift leaves 53 bits of the quotient; a
significand that rounds up to `2^53` is halved. -/
def ofRatio? (negative : Bool) (num den : Nat) : Option Binary64 :=
  let shift := (num / den).log2 - 52
  let significand := divHalfEven num (den <<< shift)
  if significand = 1 <<< 53 then ofParts? negative (1 <<< 52) (shift + 1)
  else ofParts? negative significand shift

/-- The double nearest to `digits · 10^exponent`. Beyond `10^400` there is none, and far below
the least positive double the nearest is zero, whatever the digits. -/
def ofDecimal? (negative : Bool) (digits : Nat) (exponent : Int) : Option Binary64 :=
  if digits = 0 then some (zero negative)
  else match exponent with
    | .ofNat e => if 400 < e then none else ofRatio? negative ((digits * Nat.pow 10 e) <<< 1074) 1
    | .negSucc e =>
      if digits.log2 + 400 < e then some (zero negative)
      else ofRatio? negative (digits <<< 1074) (Nat.pow 10 (e + 1))

/-- The double nearest to a whole number, if there is one. -/
def ofNat? (negative : Bool) (n : Nat) : Option Binary64 := ofRatio? negative (n <<< 1074) 1

def ofInt? (n : Int) : Option Binary64 := ofNat? (n < 0) n.natAbs

/-- The double nearest to the product, if there is one. -/
def mul? (x y : Binary64) : Option Binary64 :=
  ofRatio? (x.negative != y.negative) (x.units * y.units) (1 <<< 1074)

/-- The double nearest to the quotient, if there is one; the divisor is not to be zero. -/
def div? (x y : Binary64) : Option Binary64 :=
  ofRatio? (x.negative != y.negative) (x.units <<< 1074) y.units

/-- The whole part, towards zero. -/
def truncate (x : Binary64) : Int :=
  let n : Int := (x.units >>> 1074 : Nat)
  if x.negative then -n else n

end Binary64

end Tipping
