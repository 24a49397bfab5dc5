/-!
Lists of pairs sorted by key, with one pair for each key: the form in which stored items and the
members of objects are kept. A look-up is `List.lookup`.
-/

namespace Tipping.Keyed

variable {α : Type}

def insert (key : String) (value : α) : List (String × α) → List (String × α)
  | [] => [(key, value)]
  | (k, v) :: ps =>
    if key < k then (key, value) :: (k, v) :: ps
    else if key = k then (key, value) :: ps
    else (k, v) :: insert key value ps

def erase (key : String) (ps : List (String × α)) : List (String × α) :=
  ps.filter fun p => p.1 ≠ key

/-- Of two pairs with one key the later stands. -/
def ofList (ps : List (String × α)) : List (String × α) :=
  ps.foldl (fun acc p => insert p.1 p.2 acc) []

theorem lookup_cons (k key : String) (value : α) (ps : List (String × α)) :
    ((key, value) :: ps).lookup k = if k = key then some value else ps.lookup k := by
  rw [List.lookup_cons]
  split
  · rename_i h
    rw [if_pos (eq_of_beq h)]
  · rename_i h
    rw [if_neg fun e => by simp [e] at h]

theorem lookup_insert (key : String) (value : α) (ps : List (String × α)) (k : String) :
    (insert key value ps).lookup k = if k = key then some value else ps.lookup k := by
  induction ps with
  | nil => simp [insert, lookup_cons]
  | cons p ps ih =>
    obtain ⟨k', v⟩ := p
    simp only [insert]
    split
    · rw [lookup_cons]
    split
    · rename_i h
      subst h
      rw [lookup_cons, lookup_cons]
      split <;> rfl
    · rename_i h
      rw [lookup_cons, lookup_cons, ih]
      by_cases hk : k = k'
      · simp [hk, Ne.symm h]
      · simp [hk]

theorem lookup_erase (key : String) (ps : List (String × α)) (k : String) :
    (erase key ps).lookup k = if k = key then none else ps.lookup k := by
  induction ps with
  | nil => simp [erase]
  | cons p ps ih =>
    obtain ⟨k', v⟩ := p
    by_cases h : k' = key
    · rw [show erase key ((k', v) :: ps) = erase key ps by simp [erase, h], ih, lookup_cons]
      by_cases hk : k = key <;> simp [h, hk]
    · rw [show erase key ((k', v) :: ps) = (k', v) :: erase key ps by simp [erase, h],
        lookup_cons, lookup_cons, ih]
      by_cases hk : k = k'
      · simp [hk, h]
      · simp [hk]

end Tipping.Keyed
