/-!
Integers of a range.
-/

namespace Tipping

/-- The integers from `low` to `high`. -/
abbrev IntIn (low high : Int) : Type := { n : Int // low ≤ n ∧ n ≤ high }

abbrev Signed32 : Type := IntIn (-2147483648) 2147483647
abbrev Unsigned32 : Type := IntIn 0 4294967295
abbrev Unsigned64 : Type := IntIn 0 18446744073709551615

def Signed32.zero : Signed32 := ⟨0, by decide⟩
def Unsigned32.zero : Unsigned32 := ⟨0, by decide⟩

/-- The integer of the range that is nearest to `n`. -/
def IntIn.clamp (low high : Int) (h : low ≤ high) (n : Int) : IntIn low high :=
  if h₁ : n < low then ⟨low, Int.le_refl _, h⟩
  else if h₂ : high < n then ⟨high, h, Int.le_refl _⟩
  else ⟨n, Int.not_lt.mp h₁, Int.not_lt.mp h₂⟩

end Tipping
