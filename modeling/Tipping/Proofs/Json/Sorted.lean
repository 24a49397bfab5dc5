import Mathlib.Data.String.Basic
import Mathlib.Tactic.Lemma
import Tipping.Json.Basic
import Tipping.Proofs.Outcome

/-!
Values whose objects have their members in the order of their names, each name once.

This is the form in which objects are kept, and every value that is read has it; so a member is
found by its name, whichever way the members were written.
-/

namespace Tipping

namespace Keyed

variable {α : Type}

/-- The keys strictly ascend. -/
def Sorted (ps : List (String × α)) : Prop := (ps.map Prod.fst).Pairwise (· < ·)

lemma Sorted.nodup {ps : List (String × α)} (h : Sorted ps) : (ps.map Prod.fst).Nodup :=
  h.imp fun hlt => hlt.ne

lemma mem_insert {key : String} {value : α} {ps : List (String × α)} {p : String × α}
    (h : p ∈ insert key value ps) : p = (key, value) ∨ p ∈ ps := by
  induction ps with
  | nil => simpa [insert] using h
  | cons q ps ih =>
    simp only [insert] at h
    split at h
    · simpa using h
    split at h
    · rcases List.mem_cons.mp h with h | h
      · exact .inl h
      · exact .inr (List.mem_cons_of_mem q h)
    · rcases List.mem_cons.mp h with h | h
      · exact .inr (by simp [h])
      · exact (ih h).imp_right (List.mem_cons_of_mem q)

lemma Sorted.insert {ps : List (String × α)} (h : Sorted ps) (key : String) (value : α) :
    Sorted (insert key value ps) := by
  induction ps with
  | nil => simp [Sorted, Keyed.insert]
  | cons p ps ih =>
    obtain ⟨hp, hps⟩ := List.pairwise_cons.mp h
    simp only [Keyed.insert]
    split
    · rename_i hlt
      refine List.pairwise_cons.mpr ⟨fun k hk => ?_, h⟩
      rcases List.mem_cons.mp hk with rfl | hk
      · exact hlt
      · exact hlt.trans (hp k hk)
    split
    · rename_i heq
      subst heq
      exact h
    · rename_i hlt hne
      refine List.pairwise_cons.mpr ⟨fun k hk => ?_, ih hps⟩
      obtain ⟨q, hq, rfl⟩ := List.mem_map.mp hk
      rcases mem_insert hq with rfl | hq
      · exact lt_of_le_of_ne (not_lt.mp hlt) (Ne.symm hne)
      · exact hp _ (List.mem_map_of_mem hq)

lemma sorted_ofList (ps : List (String × α)) : Sorted (ofList ps) := by
  have hfold (acc : List (String × α)) (h : Sorted acc) :
      Sorted (ps.foldl (fun acc p => Keyed.insert p.1 p.2 acc) acc) := by
    induction ps generalizing acc with
    | nil => exact h
    | cons p ps ih => exact ih _ (h.insert p.1 p.2)
  exact hfold [] List.Pairwise.nil

lemma mem_of_mem_ofList {ps : List (String × α)} {p : String × α} (h : p ∈ ofList ps) :
    p ∈ ps := by
  have hfold (acc : List (String × α)) :
      p ∈ ps.foldl (fun acc p => Keyed.insert p.1 p.2 acc) acc → p ∈ acc ∨ p ∈ ps := by
    clear h
    induction ps generalizing acc with
    | nil => exact .inl
    | cons q ps ih =>
      intro h
      rcases ih _ h with h | h
      · rcases mem_insert h with h | h
        · exact .inr (by simp [h])
        · exact .inl h
      · exact .inr (List.mem_cons_of_mem q h)
  simpa using hfold [] h

end Keyed

namespace Json

open Outcome

mutual

/-- The members of every object in the value strictly ascend by name. -/
def Sorted : Json → Prop
  | .array items => SortedItems items
  | .object members => Keyed.Sorted members ∧ SortedMembers members
  | _ => True

def SortedItems : List Json → Prop
  | [] => True
  | v :: vs => v.Sorted ∧ SortedItems vs

def SortedMembers : List (String × Json) → Prop
  | [] => True
  | (_, v) :: ms => v.Sorted ∧ SortedMembers ms

end

lemma sortedMembers_iff {ms : List (String × Json)} :
    SortedMembers ms ↔ ∀ p ∈ ms, p.2.Sorted := by
  induction ms with
  | nil => simp [SortedMembers]
  | cons p ms ih => simp [SortedMembers, ih]

lemma sorted_ofMembers {ms : List (String × Json)} (h : SortedMembers ms) :
    (ofMembers ms).Sorted :=
  ⟨Keyed.sorted_ofList ms, sortedMembers_iff.mpr fun p hp =>
    sortedMembers_iff.mp h p (Keyed.mem_of_mem_ofList hp)⟩

mutual

theorem sorted_of_ofTree {depth : Nat} : ∀ {t : ParseTree} {v : Json},
    ofTree depth t = .ok v → v.Sorted
  | .null, _, h => by cases h; trivial
  | .bool _, _, h => by cases h; trivial
  | .number n, _, h => by
    simp only [ofTree] at h
    split at h <;> cases h
    trivial
  | .string content, _, h => by
    simp only [ofTree] at h
    split at h <;> cases h
    trivial
  | .array items ending, _, h => by
    cases depth with
    | zero => cases h
    | succ depth =>
      simp only [ofTree, bind_eq_ok] at h
      obtain ⟨vs, hvs, _, -, h⟩ := h
      cases h
      exact sorted_of_ofItems hvs
  | .object members ending, _, h => by
    cases depth with
    | zero => cases h
    | succ depth =>
      simp only [ofTree, bind_eq_ok] at h
      obtain ⟨vs, hvs, _, -, h⟩ := h
      cases h
      exact sorted_ofMembers (sorted_of_ofMemberTrees hvs)
  | .broken _, _, h => by cases h

theorem sorted_of_ofItems {depth : Nat} : ∀ {ts : List ParseTree} {vs : List Json},
    ofItems depth ts = .ok vs → SortedItems vs
  | [], _, h => by cases h; trivial
  | t :: ts, _, h => by
    simp only [ofItems, bind_eq_ok] at h
    obtain ⟨v, hv, vs, hvs, h⟩ := h
    cases h
    exact ⟨sorted_of_ofTree hv, sorted_of_ofItems hvs⟩

theorem sorted_of_ofMemberTrees {depth : Nat} :
    ∀ {ms : List (Option String × ParseTree)} {vs : List (String × Json)},
    ofMemberTrees depth ms = .ok vs → SortedMembers vs
  | [], _, h => by cases h; trivial
  | (none, t) :: ms, _, h => by cases h
  | (some name, t) :: ms, _, h => by
    simp only [ofMemberTrees, bind_eq_ok] at h
    obtain ⟨v, hv, vs, hvs, h⟩ := h
    cases h
    exact ⟨sorted_of_ofTree hv, sorted_of_ofMemberTrees hvs⟩

end

/-- Every value that a text writes is sorted. -/
theorem sorted_of_ofText {s : String} {v : Json} (h : ofText s = .ok v) : v.Sorted := by
  simp only [ofText, bind_eq_ok] at h
  obtain ⟨v', hv, h⟩ := h
  split at h <;> cases h
  exact sorted_of_ofTree hv

end Json

end Tipping
