import Tipping.Json.Basic
import Tipping.Proofs.Json.Lexing

/-!
What is written is read again as the same tree.

The text of a tree lexes to the tokens of the tree, and from these the tree grows again: each
value in it ends where it should, whatever containers are open around it.
-/

namespace Tipping.Json

namespace ParseTree

mutual

/-- Nothing in the tree is broken or lost, and its numerals are such as are written. -/
def Whole : ParseTree → Prop
  | number n => n.Plain
  | string s => s.isSome
  | array items ending => WholeItems items ∧ ending = none
  | object members ending => WholeMembers members ∧ ending = none
  | broken _ => False
  | _ => True

def WholeItems : List ParseTree → Prop
  | [] => True
  | t :: ts => t.Whole ∧ WholeItems ts

def WholeMembers : List (Option String × ParseTree) → Prop
  | [] => True
  | (name, t) :: ms => name.isSome ∧ t.Whole ∧ WholeMembers ms

end

/-! ### Lexing -/

mutual

theorem lexes_text : ∀ {t : ParseTree}, t.Whole → Lexes t.text t.tokens
  | null, _ => lexes_null
  | bool true, _ => lexes_true
  | bool false, _ => lexes_false
  | number _, h => lexes_numeral h
  | string (some s), _ => lexes_string s
  | array _ _, h => by
    rw [text, tokens]
    exact (lexes_commaSeparated (lexes_itemTexts h.1)).enclosed rfl rfl rfl rfl
      ⟨rfl, by decide, by decide⟩
  | object _ _, h => by
    rw [text, tokens]
    exact (lexes_commaSeparated (lexes_memberTexts h.1)).enclosed rfl rfl rfl rfl
      ⟨rfl, by decide, by decide⟩

theorem lexes_itemTexts : ∀ {ts : List ParseTree}, WholeItems ts →
    List.Forall₂ Lexes (itemTexts ts) (itemTokens ts)
  | [], _ => .nil
  | _ :: _, h => .cons (lexes_text h.1) (lexes_itemTexts h.2)

theorem lexes_memberTexts : ∀ {ms : List (Option String × ParseTree)}, WholeMembers ms →
    List.Forall₂ Lexes (memberTexts ms) (memberTokens ms)
  | [], _ => .nil
  | (some _, _) :: _, h => .cons ((lexes_text h.2.1).member _) (lexes_memberTexts h.2.2)

end

/-! ### Growing -/

/-- A value does not begin with a bracket that closes one. -/
lemma head_tokens {t : ParseTree} (h : t.Unbroken) (rest : List Token) :
    (t.tokens ++ rest).head? ≠ some .closeArray ∧ (t.tokens ++ rest).head? ≠ some .closeObject := by
  cases t with
  | broken _ => exact h.elim
  | _ => simp [tokens]

lemma grow_openArray {frames : List Frame} {ts : List Token} (h : ts.head? ≠ some .closeArray) :
    grow .value frames (.openArray :: ts) = grow .value (.array [] :: frames) ts := by
  cases ts with
  | nil => rfl
  | cons t ts => cases t <;> first | rfl | exact absurd rfl h

lemma grow_openObject {frames : List Frame} {ts : List Token} (h : ts.head? ≠ some .closeObject) :
    grow .value frames (.openObject :: ts) = grow (.name []) frames ts := by
  cases ts with
  | nil => rfl
  | cons t ts => cases t <;> first | rfl | exact absurd rfl h

mutual

theorem Whole.unbroken : ∀ {t : ParseTree}, t.Whole → t.Unbroken
  | null, _ => trivial
  | bool _, _ => trivial
  | number _, _ => trivial
  | string _, _ => trivial
  | array _ _, h => ⟨unbrokenItems h.1, h.2⟩
  | object _ _, h => ⟨unbrokenMembers h.1, h.2⟩

theorem unbrokenItems : ∀ {ts : List ParseTree}, WholeItems ts → UnbrokenItems ts
  | [], _ => trivial
  | _ :: _, h => ⟨h.1.unbroken, unbrokenItems h.2⟩

theorem unbrokenMembers : ∀ {ms : List (Option String × ParseTree)}, WholeMembers ms →
    UnbrokenMembers ms
  | [], _ => trivial
  | _ :: _, h => ⟨h.2.1.unbroken, unbrokenMembers h.2.2⟩

end

mutual

/-- A value grows back, whatever is open around it. -/
theorem grow_tokens : ∀ {t : ParseTree}, t.Unbroken → ∀ (frames : List Frame) (rest : List Token),
    grow .value frames (t.tokens ++ rest) = grow (.after t) frames rest
  | null, _, _, _ => rfl
  | bool _, _, _, _ => rfl
  | number _, _, _, _ => rfl
  | string _, _, _, _ => rfl
  | array [] none, _, _, _ => rfl
  | array (t :: ts) none, h, frames, rest => by
    simp only [tokens, itemTokens, commaTokens, List.cons_append, List.append_assoc,
      List.nil_append]
    rw [grow_openArray (head_tokens h.1.1 _).1, grow_tokens h.1.1, grow_itemTokens h.1.2]
    rfl
  | object [] none, _, _, _ => rfl
  | object ((name, t) :: ms) none, h, frames, rest => by
    simp only [tokens, memberTokens, commaTokens, List.cons_append, List.append_assoc,
      List.nil_append]
    rw [grow_openObject (by simp), grow, grow, grow_tokens h.1.1, grow_memberTokens h.1.2]
    rfl

/-- The items still to come join those before them. -/
theorem grow_itemTokens : ∀ {ts : List ParseTree}, UnbrokenItems ts → ∀ (t : ParseTree)
    (before : List ParseTree) (frames : List Frame) (rest : List Token),
    grow (.after t) (.array before :: frames)
        ((itemTokens ts).flatMap (.comma :: ·) ++ .closeArray :: rest) =
      grow (.after (.array (before.reverse ++ t :: ts) none)) frames rest
  | [], _, t, before, frames, rest => by simp [itemTokens, grow]
  | t' :: ts, h, t, before, frames, rest => by
    simp only [itemTokens, List.flatMap_cons, List.cons_append, List.append_assoc]
    rw [grow, grow_tokens h.1, grow_itemTokens h.2]
    simp

theorem grow_memberTokens : ∀ {ms : List (Option String × ParseTree)}, UnbrokenMembers ms →
    ∀ (t : ParseTree) (before : List (Option String × ParseTree)) (name : Option String)
      (frames : List Frame) (rest : List Token),
    grow (.after t) (.object before name :: frames)
        ((memberTokens ms).flatMap (.comma :: ·) ++ .closeObject :: rest) =
      grow (.after (.object (before.reverse ++ (name, t) :: ms) none)) frames rest
  | [], _, t, before, name, frames, rest => by simp [memberTokens, grow]
  | (name', t') :: ms, h, t, before, name, frames, rest => by
    simp only [memberTokens, List.flatMap_cons, List.cons_append, List.append_assoc]
    rw [grow, grow, grow, grow_tokens h.1, grow_memberTokens h.2]
    simp

end

/-- **What is written is read again.** The text of a whole tree gives the tree back, and nothing
follows it. -/
theorem ofText_text {t : ParseTree} (h : t.Whole) : ofText t.text = (t, false) := by
  have hlex := lexes_text h [] ends_nil
  rw [List.append_nil] at hlex
  rw [ofText, hlex, grow_tokens h.unbroken, lex]
  rfl

end ParseTree

lemma ofText_tree {t : ParseTree} (ht : t.Whole) {v : Json} (hv : ofTree depthLimit t = .ok v) :
    ofText (String.ofList t.text) = .ok v := by
  rw [ofText, String.toList_ofList, ParseTree.ofText_text ht]
  simp only [hv]
  rfl

end Tipping.Json
