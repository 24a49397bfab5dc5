import Mathlib.Data.List.Nodup
import Mathlib.Order.Defs.LinearOrder
import Tipping.Proofs.Json.Agreement

/-!
When two lists of pairs come to the same sorted list.

A sorted list is determined by what is found under each key, and what is found in the end under a
key depends on the pairs with that key alone. So pairs may change places with those of other keys.
-/

namespace Tipping.Keyed

variable {α β : Type}

/-- The pair under a key, where each key has one. -/
lemma lookup_eq_some {ps : List (String × α)} (h : (ps.map Prod.fst).Nodup) {k : String} {v : α} :
    ps.lookup k = some v ↔ (k, v) ∈ ps := by
  induction ps with
  | nil => simp
  | cons p ps ih =>
    obtain ⟨hp, hps⟩ := List.nodup_cons.mp h
    rw [lookup_cons, List.mem_cons]
    by_cases hk : k = p.1
    · have hmem : (k, v) ∉ ps := fun hm => hp (hk ▸ List.mem_map_of_mem hm)
      simp [hk ▸ hmem, hk, Prod.ext_iff, eq_comm]
    · simp [ih hps, hk, Prod.ext_iff]

/-- Sorted lists are equal if under each key the same is found. -/
lemma Sorted.ext {ps qs : List (String × α)} (hp : Sorted ps) (hq : Sorted qs)
    (h : ∀ k, ps.lookup k = qs.lookup k) : ps = qs := by
  have hmem (p : String × α) : p ∈ ps ↔ p ∈ qs := by
    rw [← lookup_eq_some hp.nodup, ← lookup_eq_some hq.nodup, h]
  have hperm : ps.Perm qs :=
    (List.perm_ext_iff_of_nodup (List.Nodup.of_map _ hp.nodup) (List.Nodup.of_map _ hq.nodup)).mpr
      hmem
  refine List.Perm.eq_of_pairwise (fun p q _ _ hlt hgt => ?_) (List.pairwise_map.mp hp)
    (List.pairwise_map.mp hq) hperm
  exact absurd (lt_trans hlt hgt) (lt_irrefl _)

lemma ofList_of_sorted {ps : List (String × α)} (h : Sorted ps) : ofList ps = ps :=
  (sorted_ofList ps).ext h fun _ => lookup_ofList (h.nodup.filter _)

/-- Among the pairs with a key of some kind, a key of that kind is found as among all. -/
lemma lookup_filter (kind : String → Bool) (ps : List (String × α)) (k : String) :
    (ps.filter (kind ·.1)).lookup k = if kind k = true then ps.lookup k else none := by
  induction ps with
  | nil => simp
  | cons p ps ih =>
    rw [List.filter_cons, lookup_cons]
    by_cases hk : k = p.1
    · subst hk
      split
      · rw [lookup_cons, if_pos rfl, if_pos rfl]
      · rename_i hkind
        rw [ih, if_neg hkind]
    · rw [if_neg hk, ← ih]
      split
      · rw [lookup_cons, if_neg hk]
      · rfl

lemma lookup_filter_eq (ps : List (String × α)) (k : String) :
    (ps.filter (·.1 = k)).lookup k = ps.lookup k := by
  rw [lookup_filter (decide <| · = k), if_pos (decide_eq_true rfl)]

/-- The pairs of each key decide what is found under it. -/
lemma ofList_congr {ps qs : List (String × α)}
    (h : ∀ k, ps.filter (·.1 = k) = qs.filter (·.1 = k)) : ofList ps = ofList qs := by
  refine (sorted_ofList ps).ext (sorted_ofList qs) fun k => ?_
  have hrev : ps.reverse.lookup k = qs.reverse.lookup k := by
    rw [← lookup_filter_eq, List.filter_reverse, h, ← List.filter_reverse, lookup_filter_eq]
  rw [ofList, ofList, lookup_foldl_insert, lookup_foldl_insert, hrev]

/-! ### Changing the values -/

/-- The pairs with their values changed. -/
def mapValues (f : α → β) (ps : List (String × α)) : List (String × β) :=
  ps.map fun p => (p.1, f p.2)

variable (f : α → β)

lemma map_fst_mapValues (ps : List (String × α)) :
    (mapValues f ps).map Prod.fst = ps.map Prod.fst := by
  rw [mapValues, List.map_map]
  rfl

lemma Sorted.mapValues {ps : List (String × α)} (h : Sorted ps) : Sorted (mapValues f ps) := by
  rw [Sorted, map_fst_mapValues]
  exact h

lemma lookup_mapValues (ps : List (String × α)) (k : String) :
    (mapValues f ps).lookup k = (ps.lookup k).map f := by
  induction ps with
  | nil => rfl
  | cons p ps ih =>
    rw [mapValues, List.map_cons, lookup_cons, lookup_cons]
    split
    · rfl
    · exact ih

lemma mapValues_insert (k : String) (v : α) (ps : List (String × α)) :
    mapValues f (insert k v ps) = insert k (f v) (mapValues f ps) := by
  induction ps with
  | nil => rfl
  | cons p ps ih =>
    simp only [mapValues, insert, List.map_cons] at ih ⊢
    split
    · rfl
    split
    · rfl
    · rw [List.map_cons, ih]

lemma mapValues_ofList (ps : List (String × α)) :
    mapValues f (ofList ps) = ofList (mapValues f ps) := by
  have hfold (acc : List (String × α)) :
      mapValues f (ps.foldl (fun acc p => insert p.1 p.2 acc) acc) =
        (mapValues f ps).foldl (fun acc p => insert p.1 p.2 acc) (mapValues f acc) := by
    induction ps generalizing acc with
    | nil => rfl
    | cons p ps ih => rw [List.foldl_cons, ih, mapValues_insert]; rfl
  exact hfold []

end Tipping.Keyed
