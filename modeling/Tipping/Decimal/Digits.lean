/-!
Decimal digits: a natural number as the list of its digits, the highest first.
-/

namespace Tipping

abbrev Digit := Fin 10

namespace Digit

def zero : Digit := ⟨0, by decide⟩

def toChar (d : Digit) : Char := Char.ofNat (48 + d.val)

def ofChar? (c : Char) : Option Digit :=
  if h : 48 ≤ c.toNat ∧ c.toNat < 58 then some ⟨c.toNat - 48, by omega⟩ else none

@[simp] theorem ofChar?_toChar (d : Digit) : ofChar? d.toChar = some d := by
  revert d; decide

end Digit

/-- The number that the digits write. -/
def ofDigits (ds : List Digit) : Nat := ds.foldl (fun n d => 10 * n + d.val) 0

/-- The digits of a number, at least one. -/
def digitsOf (n : Nat) : List Digit :=
  if n < 10 then [Fin.ofNat 10 n] else digitsOf (n / 10) ++ [Fin.ofNat 10 n]
termination_by n
decreasing_by omega

theorem ofDigits_append_singleton (ds : List Digit) (d : Digit) :
    ofDigits (ds ++ [d]) = 10 * ofDigits ds + d.val := by
  simp [ofDigits, List.foldl_append]

@[simp] theorem ofDigits_digitsOf (n : Nat) : ofDigits (digitsOf n) = n := by
  induction n using Nat.strongRecOn with
  | _ n ih =>
    rw [digitsOf]
    split
    · simp [ofDigits, Fin.ofNat]; omega
    · rw [ofDigits_append_singleton, ih (n / 10) (by omega)]
      simp [Fin.ofNat]; omega

/-- Appends digits to a number for as long as it stays within the limit, and counts the rest. -/
def takeFitting (limit n : Nat) : List Digit → Nat × Nat
  | [] => (n, 0)
  | d :: ds =>
    if 10 * n + d.val ≤ limit then takeFitting limit (10 * n + d.val) ds else (n, ds.length + 1)

def textOfDigits (ds : List Digit) : List Char := ds.map Digit.toChar

end Tipping
