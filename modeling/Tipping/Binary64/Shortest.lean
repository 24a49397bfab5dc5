import Tipping.Binary64.Basic
import Tipping.Decimal.Numeral

/-!
The shortest decimal that reads back as a given double, a decimal being read as the double
nearest to it.

A double is a whole number of units of `10^-1074`, so its exact digits are those of one natural
number. For one, two, … seventeen digits the two neighbours of the double on that decimal grid
are read back; the first grid on which one of them gives the double again has the answer. Of
two that both do, the nearer is taken, and of two equally near the even one. The exact digits
are the answer of last resort.
-/

namespace Tipping

namespace Binary64

/-- The magnitude in units of `10^-1074`, exactly. -/
def exactDigits (x : Binary64) : Nat := x.units * Nat.pow 5 1074

def readsBack (x : Binary64) (d : Decimal) : Bool :=
  ofDecimal? x.negative d.digits d.exponent = some x

/-- The answer of the grid that drops the last `dropped` exact digits, if it has one. -/
def onGrid? (x : Binary64) (dropped : Nat) : Option Decimal :=
  let unit := Nat.pow 10 dropped
  let below : Decimal := ⟨x.exactDigits / unit, dropped - 1074⟩
  let above : Decimal := ⟨x.exactDigits / unit + 1, dropped - 1074⟩
  let rest := x.exactDigits % unit
  if x.readsBack below then
    if x.readsBack above ∧ (unit < 2 * rest ∨ (unit = 2 * rest ∧ below.digits % 2 = 1)) then
      some above
    else some below
  else if x.readsBack above then some above
  else none

/-- The shortest decimal that reads back as the magnitude of `x`, without zeros at its end. -/
def shortest (x : Binary64) : Decimal :=
  let length := (digitsOf x.exactDigits).length
  let found := (List.range 17).findSome? fun n => x.onGrid? (length - (n + 1))
  (found.getD ⟨x.exactDigits, -1074⟩).strip

def numeral (l : Layout) (x : Binary64) : Numeral := l.numeral x.negative x.shortest

end Binary64

end Tipping
