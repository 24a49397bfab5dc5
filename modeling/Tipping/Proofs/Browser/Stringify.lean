import Tipping.Browser.Value
import Tipping.Proofs.Json.Reread

/-!
The JSON text of a JavaScript value writes the value that it has in JSON.

In text the members that are array indices come first. The names of an object are sorted when it is
read, so nothing of that order is left in what is read.
-/

namespace Tipping.Browser

open Json

/-! ### The order of members in text -/

section Order

variable {α β : Type}

/-- Those with an index by its size, then the others as they come. -/
def inTextOrder (index : α → Option Nat) (as : List α) : List α :=
  (as.filter fun a => (index a).isSome).mergeSort
      (fun a b => (index a).getD 0 ≤ (index b).getD 0) ++
    as.filter fun a => (index a).isNone

lemma ordered_eq (ms : List JsValue.MemberText) :
    JsValue.MemberText.ordered ms =
      (inTextOrder JsValue.MemberText.index ms).map JsValue.MemberText.text :=
  rfl

lemma inTextOrder_map (f : α → β) (index : β → Option Nat) (as : List α) :
    inTextOrder index (as.map f) = (inTextOrder (fun a => index (f a)) as).map f := by
  rw [inTextOrder, inTextOrder, List.map_append, List.map_mergeSort (s := fun a b =>
    (index a).getD 0 ≤ (index b).getD 0) fun _ _ _ _ => rfl, List.filter_map, List.filter_map]
  rfl

variable {index : α → Option Nat} {as : List α}

lemma mem_inTextOrder {a : α} : a ∈ inTextOrder index as ↔ a ∈ as := by
  rw [inTextOrder, List.mem_append, List.mem_mergeSort, List.mem_filter, List.mem_filter,
    ← and_or_left]
  cases index a <;> simp

variable {p : α → Bool} {i : Option Nat} (h : ∀ a, p a → index a = i)

include h

/-- Sorting is stable: those of one index stay as they are. -/
lemma filter_mergeSort :
    (as.mergeSort fun a b => (index a).getD 0 ≤ (index b).getD 0).filter p = as.filter p := by
  have hsub : (as.filter p).Sublist
      (as.mergeSort fun a b => (index a).getD 0 ≤ (index b).getD 0) := by
    refine List.sublist_mergeSort ?_ ?_ ?_ List.filter_sublist
    · intro a b c hab hbc
      simp only [decide_eq_true_eq] at *
      exact Nat.le_trans hab hbc
    · intro a b
      simp only [Bool.or_eq_true, decide_eq_true_eq]
      exact Nat.le_total _ _
    · refine List.pairwise_of_forall_mem_list fun a ha b hb => ?_
      rw [h a (List.mem_filter.mp ha).2, h b (List.mem_filter.mp hb).2]
      simp
  have hfilter := hsub.filter p
  rw [List.filter_filter] at hfilter
  simp only [Bool.and_self] at hfilter
  exact (hfilter.eq_of_length ((List.mergeSort_perm as _).filter p).length_eq.symm).symm

lemma filter_inTextOrder : (inTextOrder index as).filter p = as.filter p := by
  rw [inTextOrder, List.filter_append, filter_mergeSort h, List.filter_filter, List.filter_filter]
  have hsome (a : α) : (p a && (index a).isSome) = (p a && i.isSome) := by
    cases hp : p a with
    | false => rfl
    | true => rw [h a hp]
  have hnone (a : α) : (p a && (index a).isNone) = (p a && i.isNone) := by
    cases hp : p a with
    | false => rfl
    | true => rw [h a hp]
  simp only [hsome, hnone]
  cases i <;> simp

end Order

/-- Nothing of the order in text is left when the members are sorted by name. -/
lemma ofList_inTextOrder {α : Type} (ps : List (String × α)) :
    Keyed.ofList (inTextOrder (fun p => index? p.1) ps) = Keyed.ofList ps := by
  refine Keyed.ofList_congr fun k => filter_inTextOrder (i := index? k) fun p hp => ?_
  rw [of_decide_eq_true hp]

namespace JsValue

/-! ### What a value is in JSON, and the tree of its text -/

/-- The value has a text: it is neither `undefined` nor opaque. -/
def isWritten : JsValue → Bool
  | undefined => false
  | cyclic => false
  | _ => true

mutual

/-- How many containers of the value are open at once. -/
def height : JsValue → Nat
  | array items => heightOfItems items + 1
  | object members => heightOfMembers members + 1
  | _ => 0

def heightOfItems : List JsValue → Nat
  | [] => 0
  | v :: vs => max v.height (heightOfItems vs)

def heightOfMembers : List (String × JsValue) → Nat
  | [] => 0
  | (_, v) :: ms => max v.height (heightOfMembers ms)

end

mutual

/-- The value in JSON: what JSON does not know is null, and as a member it is left out. -/
def json : JsValue → Json
  | undefined => .null
  | null => .null
  | bool b => .bool b
  | number (.finite x) => .number (.double x)
  | number _ => .null
  | string s => .string s
  | array items => .array (jsonItems items)
  | object members => .ofMembers (jsonMembers members)
  | cyclic => .null

def jsonItems : List JsValue → List Json
  | [] => []
  | v :: vs => v.json :: jsonItems vs

def jsonMembers : List (String × JsValue) → List (String × Json)
  | [] => []
  | (name, v) :: ms => if v.isWritten then (name, v.json) :: jsonMembers ms else jsonMembers ms

end

/-- The numeral of a finite number. -/
def numeral (x : Binary64) : Numeral := layout.numeral (x.negative && !x.isZero) x.shortest

mutual

def tree : JsValue → ParseTree
  | undefined => .null
  | null => .null
  | bool b => .bool b
  | number (.finite x) => .number (numeral x)
  | number _ => .null
  | string s => .string (some s)
  | array items => .array (itemTrees items) none
  | object members => .object (inTextOrder (fun m => m.1.bind index?) (memberTrees members)) none
  | cyclic => .null

def itemTrees : List JsValue → List ParseTree
  | [] => []
  | v :: vs => v.tree :: itemTrees vs

def memberTrees : List (String × JsValue) → List (Option String × ParseTree)
  | [] => []
  | (name, v) :: ms =>
    if v.isWritten then (some name, v.tree) :: memberTrees ms else memberTrees ms

end

lemma tree_of_not_written : ∀ {v : JsValue}, v.isWritten = false → v.tree = .null
  | undefined, _ => rfl
  | cyclic, _ => rfl

lemma jsonItems_eq (vs : List JsValue) : jsonItems vs = vs.map json := by
  induction vs with
  | nil => rfl
  | cons v vs ih => rw [jsonItems, ih, List.map_cons]

lemma itemTrees_eq (vs : List JsValue) : itemTrees vs = vs.map tree := by
  induction vs with
  | nil => rfl
  | cons v vs ih => rw [itemTrees, ih, List.map_cons]

/-- The members that come in text. -/
def written (ms : List (String × JsValue)) : List (String × JsValue) :=
  ms.filter fun m => m.2.isWritten

lemma jsonMembers_eq (ms : List (String × JsValue)) :
    jsonMembers ms = Keyed.mapValues json (written ms) := by
  induction ms with
  | nil => rfl
  | cons m ms ih =>
    rw [jsonMembers, ih, written, written, List.filter_cons]
    split <;> rfl

lemma memberTrees_eq (ms : List (String × JsValue)) :
    memberTrees ms = (written ms).map fun m => (some m.1, m.2.tree) := by
  induction ms with
  | nil => rfl
  | cons m ms ih =>
    rw [memberTrees, ih, written, written, List.filter_cons]
    split <;> rfl

/-! ### The text -/

def memberText (m : Option String × ParseTree) : MemberText :=
  ⟨m.1.bind index?, stringText (m.1.getD "") ++ ':' :: m.2.text⟩

lemma ordered_memberText (ms : List (Option String × ParseTree)) :
    MemberText.ordered (ms.map memberText) =
      ParseTree.memberTexts (inTextOrder (fun m => m.1.bind index?) ms) := by
  have htexts (ms : List (Option String × ParseTree)) :
      ParseTree.memberTexts ms = (ms.map memberText).map MemberText.text := by
    induction ms with
    | nil => rfl
    | cons m ms ih => rw [ParseTree.memberTexts, ih]; rfl
  rw [ordered_eq, inTextOrder_map, htexts]
  rfl

mutual

theorem jsonText?_eq : ∀ v : JsValue,
    v.jsonText? = if v.isWritten then some v.tree.text else none
  | undefined => rfl
  | null => rfl
  | bool _ => rfl
  | number (.finite _) => rfl
  | number .nan => rfl
  | number (.infinity _) => rfl
  | string _ => rfl
  | array items => by
    rw [jsonText?, itemTexts_eq items]
    rfl
  | object members => by
    rw [jsonText?, memberTexts_eq members, ordered_memberText]
    rfl
  | cyclic => rfl

theorem itemTexts_eq : ∀ vs : List JsValue, itemTexts vs = ParseTree.itemTexts (itemTrees vs)
  | [] => rfl
  | v :: vs => by
    rw [itemTexts, jsonText?_eq v, itemTexts_eq vs, itemTrees, ParseTree.itemTexts]
    cases hw : v.isWritten with
    | true => rfl
    | false => rw [tree_of_not_written hw]; rfl

theorem memberTexts_eq : ∀ ms : List (String × JsValue),
    memberTexts ms = (memberTrees ms).map memberText
  | [] => rfl
  | (name, v) :: ms => by
    rw [memberTexts, jsonText?_eq v, memberTexts_eq ms, memberTrees]
    cases v.isWritten with
    | true => rfl
    | false => rfl

end

/-- The text of a value that has one is that of its tree. -/
lemma stringify_eq {v : JsValue} (hc : v.hasCycle = false) (hw : v.isWritten = true) :
    v.stringify = .ok (some (String.ofList v.tree.text)) := by
  rw [stringify, hc, jsonText?_eq, hw]
  rfl

/-! ### Reading back -/

/-- What a number is when it has been written and read. -/
def reread : Json.Number → Json.Number
  | .double x => (Number.ofNumeral? (numeral x)).getD (.double x)
  | n => n

lemma writes_finite {depth : Nat} (x : Binary64) :
    Writes depth (.number (numeral x)) (.number (reread (.double x))) := by
  have hplain : (numeral x).Plain := Layout.plain_numeral layout _ x.shortest
  obtain ⟨m, hm⟩ := ofNumeral?_isSome
    (doubleOf?_numeral (l := layout) (by decide) (x.negative && !x.isZero) x)
  have hread : Number.ofNumeral? (numeral x) = some (reread (.double x)) := by
    rw [reread, numeral, hm]
    rfl
  exact writes_number hplain hread

/-- Members in the order of text are read as they would be in their own. -/
lemma writes_members {depth : Nat} {ms : List (String × JsValue)}
    (h : ∀ m ∈ ms, Writes depth m.2.tree (m.2.json.mapNumbers reread)) :
    Writes (depth + 1) (object ms).tree ((object ms).json.mapNumbers reread) := by
  have hmem : ∀ m ∈ inTextOrder (fun m => index? m.1) (written ms),
      Writes depth m.2.tree (m.2.json.mapNumbers reread) :=
    fun m hm => h m (List.mem_of_mem_filter (mem_inTextOrder.mp hm))
  have hvalues (ps : List (String × JsValue)) :
      Keyed.mapValues (fun v => v.json.mapNumbers reread)
          (inTextOrder (fun m => index? m.1) ps) =
        inTextOrder (fun m => index? m.1)
          (Keyed.mapValues (mapNumbers reread) (Keyed.mapValues json ps)) := by
    simp only [Keyed.mapValues, List.map_map, inTextOrder_map]
    rfl
  have hwrites : Writes (depth + 1) (.object ((inTextOrder (fun m => index? m.1) (written ms)).map
        fun m => (some m.1, m.2.tree)) none)
      (.ofMembers (Keyed.mapValues (fun v => v.json.mapNumbers reread)
        (inTextOrder (fun m => index? m.1) (written ms)))) := writes_object hmem
  rw [ofMembers, hvalues, ofList_inTextOrder] at hwrites
  rw [tree, json, mapNumbers_ofMembers, memberTrees_eq, jsonMembers_eq, inTextOrder_map]
  exact hwrites

mutual

theorem writes_tree {depth : Nat} : ∀ {v : JsValue}, v.height ≤ depth →
    Writes depth v.tree (v.json.mapNumbers reread)
  | undefined, _ => ⟨trivial, rfl⟩
  | null, _ => ⟨trivial, rfl⟩
  | bool _, _ => ⟨trivial, rfl⟩
  | number (.finite x), _ => writes_finite x
  | number .nan, _ => ⟨trivial, rfl⟩
  | number (.infinity _), _ => ⟨trivial, rfl⟩
  | string _, _ => ⟨rfl, rfl⟩
  | array items, h => by
    cases depth with
    | zero => exact absurd h (Nat.not_succ_le_zero _)
    | succ depth =>
      have hwrites := writes_array (writes_itemTrees (Nat.le_of_succ_le_succ h))
      rw [tree, json, mapNumbers, itemTrees_eq, jsonItems_eq, itemsWith_eq, List.map_map]
      exact hwrites
  | object members, h => by
    cases depth with
    | zero => exact absurd h (Nat.not_succ_le_zero _)
    | succ depth => exact writes_members (writes_memberTrees (Nat.le_of_succ_le_succ h))
  | cyclic, _ => ⟨trivial, rfl⟩

theorem writes_itemTrees {depth : Nat} : ∀ {vs : List JsValue}, heightOfItems vs ≤ depth →
    ∀ v ∈ vs, Writes depth v.tree (v.json.mapNumbers reread)
  | [], _ => by simp
  | _ :: _, h => List.forall_mem_cons.mpr
    ⟨writes_tree (Nat.le_trans (Nat.le_max_left _ _) h),
      writes_itemTrees (Nat.le_trans (Nat.le_max_right _ _) h)⟩

theorem writes_memberTrees {depth : Nat} : ∀ {ms : List (String × JsValue)},
    heightOfMembers ms ≤ depth → ∀ m ∈ ms, Writes depth m.2.tree (m.2.json.mapNumbers reread)
  | [], _ => by simp
  | (_, _) :: _, h => List.forall_mem_cons.mpr
    ⟨writes_tree (Nat.le_trans (Nat.le_max_left _ _) h),
      writes_memberTrees (Nat.le_trans (Nat.le_max_right _ _) h)⟩

end

/-- **The text of a value is read as the value that it is in JSON**, each number as what its
numeral is read as. -/
theorem ofText_stringify {v : JsValue} (hc : v.hasCycle = false) (hw : v.isWritten = true)
    (hh : v.height ≤ depthLimit) :
    ∃ text, v.stringify = .ok (some text) ∧ ofText text = .ok (v.json.mapNumbers reread) := by
  obtain ⟨hwhole, hread⟩ := writes_tree hh
  exact ⟨_, stringify_eq hc hw, ofText_tree hwhole hread⟩

end JsValue

end Tipping.Browser
