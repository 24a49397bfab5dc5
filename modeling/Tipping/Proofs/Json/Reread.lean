import Tipping.Proofs.Json.Numbers
import Tipping.Proofs.Keyed

/-!
A value is read back from its own text, but for what reading does to its numbers.

The text of a value is that of a tree, which comes back whole, and the tree is gone through in the
order of the value. Every number of it is read as some number, if not always as the same.
-/

namespace Tipping.Json

/-! ### Trees that write values -/

/-- The tree comes back from its text, and the value from the tree. -/
def Writes (depth : Nat) (t : ParseTree) (v : Json) : Prop := t.Whole ∧ ofTree depth t = .ok v

lemma writes_number {depth : Nat} {n : Numeral} (hn : n.Plain) {m : Number}
    (h : Number.ofNumeral? n = some m) : Writes depth (.number n) (.number m) := by
  refine ⟨hn, ?_⟩
  rw [ofTree, h]

section Containers

variable {α : Type} {depth : Nat} {tree : α → ParseTree} {value : α → Json}

lemma writes_array {as : List α} (h : ∀ a ∈ as, Writes depth (tree a) (value a)) :
    Writes (depth + 1) (.array (as.map tree) none) (.array (as.map value)) := by
  have hitems : ParseTree.WholeItems (as.map tree) ∧
      ofItems depth (as.map tree) = .ok (as.map value) := by
    induction as with
    | nil => exact ⟨trivial, rfl⟩
    | cons a as ih =>
      rw [List.forall_mem_cons] at h
      obtain ⟨hwhole, hread⟩ := ih h.2
      refine ⟨⟨h.1.1, hwhole⟩, ?_⟩
      rw [List.map_cons, ofItems, h.1.2, hread]
      rfl
  refine ⟨⟨hitems.1, rfl⟩, ?_⟩
  rw [ofTree, hitems.2]
  rfl

lemma writes_object {ps : List (String × α)}
    (h : ∀ p ∈ ps, Writes depth (tree p.2) (value p.2)) :
    Writes (depth + 1) (.object (ps.map fun p => (some p.1, tree p.2)) none)
      (.ofMembers (Keyed.mapValues value ps)) := by
  have hmembers : ParseTree.WholeMembers (ps.map fun p => (some p.1, tree p.2)) ∧
      ofMemberTrees depth (ps.map fun p => (some p.1, tree p.2)) =
        .ok (Keyed.mapValues value ps) := by
    induction ps with
    | nil => exact ⟨trivial, rfl⟩
    | cons p ps ih =>
      rw [List.forall_mem_cons] at h
      obtain ⟨hwhole, hread⟩ := ih h.2
      refine ⟨⟨rfl, h.1.1, hwhole⟩, ?_⟩
      rw [List.map_cons, ofMemberTrees, h.1.2, hread]
      rfl
  refine ⟨⟨hmembers.1, rfl⟩, ?_⟩
  rw [ofTree, hmembers.2]
  rfl

end Containers

/-! ### Nesting and numbers of a value -/

mutual

/-- How many containers of the value are open at once. -/
def height : Json → Nat
  | array items => heightOfItems items + 1
  | object members => heightOfMembers members + 1
  | _ => 0

def heightOfItems : List Json → Nat
  | [] => 0
  | v :: vs => max v.height (heightOfItems vs)

def heightOfMembers : List (String × Json) → Nat
  | [] => 0
  | (_, v) :: ms => max v.height (heightOfMembers ms)

end

mutual

/-- The value with its numbers changed. -/
def mapNumbers (f : Number → Number) : Json → Json
  | number n => number (f n)
  | array items => array (itemsWith f items)
  | object members => object (membersWith f members)
  | v => v

def itemsWith (f : Number → Number) : List Json → List Json
  | [] => []
  | v :: vs => v.mapNumbers f :: itemsWith f vs

def membersWith (f : Number → Number) : List (String × Json) → List (String × Json)
  | [] => []
  | (name, v) :: ms => (name, v.mapNumbers f) :: membersWith f ms

end

lemma itemsWith_eq (f : Number → Number) (vs : List Json) :
    itemsWith f vs = vs.map (mapNumbers f) := by
  induction vs with
  | nil => rfl
  | cons v vs ih => rw [itemsWith, ih, List.map_cons]

lemma membersWith_eq (f : Number → Number) (ms : List (String × Json)) :
    membersWith f ms = Keyed.mapValues (mapNumbers f) ms := by
  induction ms with
  | nil => rfl
  | cons p ms ih => rw [membersWith, ih]; rfl

lemma mapNumbers_ofMembers (f : Number → Number) (ms : List (String × Json)) :
    (ofMembers ms).mapNumbers f = ofMembers (Keyed.mapValues (mapNumbers f) ms) := by
  rw [ofMembers, mapNumbers, membersWith_eq, Keyed.mapValues_ofList, ofMembers]

lemma itemTrees_eq (vs : List Json) : itemTrees vs = vs.map tree := by
  induction vs with
  | nil => rfl
  | cons v vs ih => rw [itemTrees, ih, List.map_cons]

lemma memberTrees_eq (ms : List (String × Json)) :
    memberTrees ms = ms.map fun p => (some p.1, p.2.tree) := by
  induction ms with
  | nil => rfl
  | cons p ms ih => rw [memberTrees, ih, List.map_cons]

/-! ### Reading back -/

/-- What the numeral of the number is read as. -/
def Number.reread (n : Number) : Number := (ofNumeral? n.numeral).getD n

lemma Number.ofNumeral?_numeral (n : Number) : ofNumeral? n.numeral = some n.reread := by
  obtain ⟨m, hm⟩ := n.readable
  rw [reread, hm]
  rfl

lemma Number.plain_numeral : ∀ n : Number, n.numeral.Plain
  | integer n _ => Numeral.plain_ofInt n
  | double x => Layout.plain_numeral layout x.negative x.shortest

mutual

theorem writes_tree {depth : Nat} : ∀ {v : Json}, v.Sorted → v.height ≤ depth →
    Writes depth v.tree (v.mapNumbers Number.reread)
  | null, _, _ => ⟨trivial, rfl⟩
  | bool _, _, _ => ⟨trivial, rfl⟩
  | number n, _, _ => writes_number n.plain_numeral n.ofNumeral?_numeral
  | string _, _, _ => ⟨rfl, rfl⟩
  | array items, hs, hh => by
    cases depth with
    | zero => exact absurd hh (Nat.not_succ_le_zero _)
    | succ depth =>
      rw [tree, mapNumbers, itemTrees_eq, itemsWith_eq]
      exact writes_array (writes_itemTrees hs (Nat.le_of_succ_le_succ hh))
  | object members, hs, hh => by
    cases depth with
    | zero => exact absurd hh (Nat.not_succ_le_zero _)
    | succ depth =>
      have h := writes_object (writes_memberTrees hs.2 (Nat.le_of_succ_le_succ hh))
      rw [ofMembers, Keyed.ofList_of_sorted (hs.1.mapValues _)] at h
      rw [tree, mapNumbers, memberTrees_eq, membersWith_eq]
      exact h

theorem writes_itemTrees {depth : Nat} : ∀ {vs : List Json}, SortedItems vs →
    heightOfItems vs ≤ depth → ∀ v ∈ vs, Writes depth v.tree (v.mapNumbers Number.reread)
  | [], _, _ => by simp
  | _ :: _, hs, hh => List.forall_mem_cons.mpr
    ⟨writes_tree hs.1 (Nat.le_trans (Nat.le_max_left _ _) hh),
      writes_itemTrees hs.2 (Nat.le_trans (Nat.le_max_right _ _) hh)⟩

theorem writes_memberTrees {depth : Nat} : ∀ {ms : List (String × Json)}, SortedMembers ms →
    heightOfMembers ms ≤ depth →
      ∀ p ∈ ms, Writes depth p.2.tree (p.2.mapNumbers Number.reread)
  | [], _, _ => by simp
  | (_, _) :: _, hs, hh => List.forall_mem_cons.mpr
    ⟨writes_tree hs.1 (Nat.le_trans (Nat.le_max_left _ _) hh),
      writes_memberTrees hs.2 (Nat.le_trans (Nat.le_max_right _ _) hh)⟩

end

/-- **A value is read back from its own text**, each number as what its numeral is read as. -/
theorem ofText_text {v : Json} (hs : v.Sorted) (hh : v.height ≤ depthLimit) :
    ofText v.text = .ok (v.mapNumbers Number.reread) := by
  obtain ⟨hwhole, hread⟩ := writes_tree hs hh
  exact ofText_tree hwhole hread

end Tipping.Json
