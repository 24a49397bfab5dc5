import Tipping.Decimal.Digits

/-!
Decimal numerals: a sign, the digits before the point, those after it, and a power of ten.

A numeral is the written form, a `Decimal` the number: `1.50e3` and `1500` are two numerals of
one number. A layout says how a number is written as a numeral.
-/

namespace Tipping

/-- The number `digits · 10^exponent`. -/
structure Decimal where
  digits : Nat
  exponent : Int
  deriving DecidableEq, Repr

/-- The same number without zeros at the end of its digits. -/
def Decimal.strip (d : Decimal) : Decimal :=
  if h : d.digits ≠ 0 ∧ d.digits % 10 = 0 then strip ⟨d.digits / 10, d.exponent + 1⟩ else d
termination_by d.digits
decreasing_by omega

/-- No digits after the point means that there is no point. -/
structure Numeral where
  negative : Bool
  whole : List Digit
  fraction : List Digit
  power : Option Int
  deriving DecidableEq, Repr

namespace Numeral

/-- Neither a point nor a power of ten is written. -/
def isWhole (n : Numeral) : Bool := n.fraction.isEmpty && n.power.isNone

/-- The leading digits, as far as they fit within a limit, with the power of ten that puts them
where they were. -/
def leading (limit : Nat) (n : Numeral) : Decimal :=
  let (whole, dropped) := takeFitting limit 0 n.whole
  let (digits, left) := takeFitting limit whole n.fraction
  ⟨digits, n.power.getD 0 + dropped + left - n.fraction.length⟩

def powerText (p : Int) : List Char :=
  'e' :: (if p < 0 then '-' else '+') :: textOfDigits (digitsOf p.natAbs)

def text (n : Numeral) : List Char :=
  (if n.negative then ['-'] else []) ++ textOfDigits n.whole ++
    (if n.fraction.isEmpty then [] else '.' :: textOfDigits n.fraction) ++
    (n.power.map powerText).getD []

def ofInt (n : Int) : Numeral := ⟨n < 0, digitsOf n.natAbs, [], none⟩

end Numeral

/-- Numbers whose leading digit stands for a power of ten from `lowest` to `highest` are written
without a power of ten; whole ones have a zero after the point if `pointed`. -/
structure Layout where
  lowest : Int
  highest : Int
  pointed : Bool

namespace Layout

def fraction (l : Layout) (ds : List Digit) : List Digit :=
  if ds.isEmpty && l.pointed then [.zero] else ds

def numeral (l : Layout) (negative : Bool) (d : Decimal) : Numeral :=
  let ds := digitsOf d.digits
  let lead : Int := d.exponent + ds.length - 1
  if d.digits = 0 then ⟨negative, [.zero], l.fraction [], none⟩
  else if l.lowest ≤ lead ∧ lead ≤ l.highest then
    if lead < 0 then ⟨negative, [.zero], List.replicate (-lead - 1).toNat .zero ++ ds, none⟩
    else
      let places := lead.toNat + 1
      ⟨negative, ds.take places ++ List.replicate (places - ds.length) .zero,
        l.fraction (ds.drop places), none⟩
  else ⟨negative, ds.take 1, ds.drop 1, some lead⟩

end Layout

end Tipping
