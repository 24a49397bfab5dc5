import Tipping.Proofs.Payments.Debounce
import Tipping.Proofs.Payments.Item
import Tipping.Proofs.RoundTrip

/-!
Loading gives back what was written last.

The item is the text of the save that the store took last, without what cleaning drops, and a
state without that comes back from its text. So a state that was loaded can be saved and loaded
over and over: it stays what it is, and so does its text.
-/

namespace Tipping.Payments

open Json

namespace State

lemma clean_clean (s : State) : s.clean.clean = s.clean := by simp [clean]

lemma publisherKey_ne {s : State} {c : Contribution} (h : c ∈ s.clean.pendingContributions) :
    c.publisherKey ≠ "" := by
  have hc := (List.mem_filter.mp h).2
  simpa using hc

lemma exact_clean {s : State} (h : codec.Exact s) : codec.Exact s.clean :=
  exact_state fun c hc => h.2.1 c (List.mem_filter.mp hc).1

/-- The state that an item stands for. -/
def ofItem : Option String → State
  | none => .initial
  | some text =>
    match codec.readText text with
    | .ok s => s.clean
    | .error _ => .initial

lemma clean_ofItem (item : Option String) : (ofItem item).clean = ofItem item := by
  have hinitial : initial.clean = initial := rfl
  cases item with
  | none => exact hinitial
  | some text =>
    simp only [ofItem]
    split
    · exact clean_clean _
    · exact hinitial

lemma ofItem_text {s : State} (h : codec.Exact s) :
    ofItem (some (codec.text s.clean)) = s.clean := by
  have hread := Exchanged.payments.readText_text (a := s.clean) fun _ => exact_clean h
  rw [ofItem, hread]
  exact clean_clean s

end State

/-! ### What the store took last -/

/-- The attempt that the store took last carried this state: its saver's last save, not handed
over before. -/
def TookLast (s : State) (tr : List Happening) : Prop :=
  ∃ before w after job, tr = before ++ .wrote w :: after ∧ w.outcome = .ok () ∧
    taken after = [] ∧ owed w.saver before = some (job, s)

lemma taken?_eq_some {h : Happening} {text : String} (ht : h.taken? = some text) :
    ∃ w, h = .wrote w ∧ w.outcome = .ok () ∧ w.text = text := by
  cases h with
  | wrote w =>
    cases hw : w.outcome with
    | error f => simp [Happening.taken?, hw, Except.toOption] at ht
    | ok u => exact ⟨w, rfl, hw, by simpa [Happening.taken?, hw, Except.toOption] using ht⟩
  | _ => cases ht

lemma TookLast.getLast? {s : State} {tr : List Happening} (h : TookLast s tr) (ho : Orderly tr) :
    (taken tr).getLast? = some (State.codec.text s.clean) := by
  obtain ⟨before, w, after, job, rfl, hw, hafter, howed⟩ := h
  obtain ⟨job', s', howed', hcarries⟩ := ho before w after rfl
  cases howed.symm.trans howed'
  have hcons : taken (.wrote w :: after) = [w.text] := by
    simp only [taken] at hafter
    simp [taken, Happening.taken?, hw, hafter, Except.toOption]
  rw [taken_append, hcons, List.getLast?_concat, hcarries.text]

lemma exists_tookLast {tr : List Happening} (ho : Orderly tr) (h : taken tr ≠ []) :
    ∃ s, TookLast s tr := by
  induction tr using List.reverseRecOn with
  | nil => exact absurd rfl h
  | append_singleton tr x ih =>
    cases hx : x.taken? with
    | none =>
      have hnone : taken [x] = [] := by simp [taken, hx]
      rw [taken_append, hnone, List.append_nil] at h
      obtain ⟨s, before, w, after, job, rfl, hw, hafter, howed⟩ := ih ho.of_append h
      have hquiet : taken (after ++ [x]) = [] := by
        rw [taken_append, hafter, hnone, List.append_nil]
      exact ⟨s, before, w, after ++ [x], job, by simp, hw, hquiet, howed⟩
    | some text =>
      obtain ⟨w, rfl, hw, -⟩ := taken?_eq_some hx
      obtain ⟨job, s, howed, -⟩ := ho tr w [] rfl
      exact ⟨s, tr, w, [], job, rfl, hw, rfl, howed⟩

/-- What is owed was owed before, or it has been saved since. -/
lemma owed_append {i job : Nat} {s : State} {tr hs : List Happening}
    (h : owed i (tr ++ hs) = some (job, s)) :
    (∃ time, .saved i job time s ∈ hs) ∨ owed i tr = some (job, s) := by
  induction hs using List.reverseRecOn with
  | nil => exact .inr (by simpa using h)
  | append_singleton hs x ih =>
    rw [← List.append_assoc, owed_concat, owe] at h
    split at h
    · cases hx : x.save? i with
      | none =>
        rw [hx, Option.none_or] at h
        rcases ih h with ⟨time, hm⟩ | h
        · exact .inl ⟨time, List.mem_append_left _ hm⟩
        · exact .inr h
      | some p =>
        rw [hx] at h
        cases h
        obtain ⟨time, rfl⟩ := save?_eq_some hx
        exact .inl ⟨time, by simp⟩
    · cases h

namespace Desk

/-! ### Loading -/

lemma load_eq {σ : Type} [ItemStore σ] (d : Desk σ) :
    d.load.1 = match (ItemStore.getItem itemKey d.store).1 with
      | .ok item => .ofItem item
      | .error _ => .initial := by
  simp only [load]
  split <;> rename_i h <;> rw [h]
  · rfl
  · split <;> rename_i h' <;> simp [State.ofItem, h']

lemma load_eq_ofItem {d : Desk Memory} (h : d.store.getFailure = none) :
    d.load.1 = .ofItem d.item := by
  simp [load_eq, ItemStore.getItem, h, item]

/-- What is loaded has nothing that cleaning drops. -/
lemma clean_load {σ : Type} [ItemStore σ] (d : Desk σ) : d.load.1.clean = d.load.1 := by
  rw [load_eq]
  split
  · exact State.clean_ofItem _
  · rfl

/-! ### Rounds -/

/-- Every save is of the given state, or of the one that is loaded then, and nobody else writes
the item. -/
def Rounds (s : State) : Desk Memory → List (Act Memory) → Prop
  | _, [] => True
  | d, a :: as =>
    (a.SparesItem ∧ ∀ i t, a = .save i t → t = s ∨ d.store.getFailure = none ∧ t = d.load.1) ∧
      Rounds s (d.act a) as

/-- When nothing else is saved, nothing else is written. -/
lemma Kept.taken_eq {d d' : Desk Memory} {s : State} (h : Kept d) (h' : Kept d')
    (hpending : ∀ i t, d.pending? i = some t → t = s) {hs : List Happening}
    (ht : d'.trace = d.trace ++ hs) (hsaved : ∀ i job time t, .saved i job time t ∈ hs → t = s) :
    ∀ text ∈ taken hs, text = State.codec.text s.clean := by
  intro text hmem
  obtain ⟨x, hx, htaken⟩ := List.mem_filterMap.mp hmem
  obtain ⟨w, rfl, -, rfl⟩ := taken?_eq_some htaken
  obtain ⟨before, after, rfl⟩ := List.append_of_mem hx
  obtain ⟨job, t, howed, hcarries⟩ := h'.orderly (d.trace ++ before) w after (by simp [ht])
  have hts : t = s := by
    rcases owed_append howed with ⟨time, hm⟩ | howed
    · exact hsaved _ job time t (List.mem_append_left _ hm)
    · exact hpending w.saver t (by rw [h.pending, howed]; rfl)
  rw [hcarries.text, hts]

/-- The item keeps standing for the state. -/
lemma Kept.ofItem_eq {d d' : Desk Memory} {s : State} (h : Kept d) (h' : Kept d')
    (hpending : ∀ i t, d.pending? i = some t → t = s) (hs : State.codec.Exact s)
    (hclean : s.clean = s) (hitem : State.ofItem d.item = s) (hgrows : Grows (· = s) d d') :
    State.ofItem d'.item = s := by
  obtain ⟨hs', ht, hi, hsaved⟩ := hgrows
  have htaken := h.taken_eq h' hpending ht hsaved
  rw [hi]
  cases hlast : (taken hs').getLast? with
  | none => exact hitem
  | some text =>
    rw [Option.some_or, htaken text (List.mem_of_getLast? hlast), State.ofItem_text hs, hclean]

/-- In rounds nothing else is saved. -/
lemma Kept.rounds {d d' : Desk Memory} {s : State} (h : Kept d) (h' : Kept d')
    (hpending : ∀ i t, d.pending? i = some t → t = s) (hs : State.codec.Exact s)
    (hclean : s.clean = s) (hitem : State.ofItem d.item = s) (hgrows : Grows (· = s) d d')
    {as : List (Act Memory)} (has : Rounds s d' as) : Grows (· = s) d (d'.acts as) := by
  induction as generalizing d' with
  | nil => exact hgrows
  | cons a as ih =>
    have hsave (i : Nat) (t : State) (ha : a = .save i t) : t = s := by
      rcases has.1.2 i t ha with ht | ⟨hget, rfl⟩
      · exact ht
      · rw [load_eq_ofItem hget]
        exact h.ofItem_eq h' hpending hs hclean hitem hgrows
    exact ih (strokes_inv kept_stroke (strokes_act d' a) h')
      (hgrows.trans (grows_act has.1.1 hsave d')) has.2

end Desk

open Desk

/-- **Loading gives back what was written last.** In every run in which nobody else writes the
item, a load that can read gives the state that the store took last, cleaned, or what the first
item stands for if it took none. Whatever the item, nothing is loaded that cleaning would drop; a
load changes nothing and sees nothing but the store. And in rounds of loading and saving the state
stays the same, and its text once it is written. -/
theorem load_last_written (m : Memory) (timer : Timer) (windows : List Nat)
    (as : List (Act Memory)) (has : ∀ a ∈ as, a.SparesItem) :
    let d := (Desk.new m timer windows).acts as
    (d.store.getFailure = none →
      (∀ s, TookLast s d.trace → State.codec.Exact s → d.load.1 = s.clean) ∧
        (taken d.trace ≠ [] → ∃ s, TookLast s d.trace) ∧
        (taken d.trace = [] → d.load.1 = .ofItem (m.items.lookup itemKey))) ∧
    (∀ d : Desk Memory, (∀ c ∈ d.load.1.pendingContributions, c.publisherKey ≠ "") ∧
      d.load.1.clean = d.load.1 ∧
      (∃ hs, d.load.2 = { d with trace := d.trace ++ hs }) ∧
      ∀ d' : Desk Memory, d'.store = d.store → d'.load.1 = d.load.1) ∧
    (d.store.getFailure = none → State.codec.Exact d.load.1 →
      (∀ i s, d.pending? i = some s → s = d.load.1) → ∀ as', Rounds d.load.1 d as' →
      let d' := d.acts as'
      (d'.store.getFailure = none → d'.load.1 = d.load.1) ∧
        ∃ hs, d'.trace = d.trace ++ hs ∧
          d'.item = if taken hs = [] then d.item else some (State.codec.text d.load.1)) := by
  intro d
  have h : Kept d := kept_acts m timer windows as
  have hitem : d.item = (taken d.trace).getLast?.or (m.items.lookup itemKey) :=
    item_acts m timer windows has
  refine ⟨fun hget => ⟨fun s hs hexact => ?_, exists_tookLast h.orderly, fun hnone => ?_⟩,
    fun d => ⟨fun c hc => ?_, d.clean_load, ?_, fun d' hstore => ?_⟩,
    fun hget hexact hpending as' has' => ?_⟩
  · rw [load_eq_ofItem hget, hitem, hs.getLast? h.orderly]
    exact State.ofItem_text hexact
  · rw [load_eq_ofItem hget, hitem, hnone]
    rfl
  · rw [← clean_load] at hc
    exact State.publisherKey_ne hc
  · obtain ⟨hs, hload, -⟩ := d.load_frame
    exact ⟨hs, hload⟩
  · rw [load_eq, load_eq, hstore]
  · have hclean : d.load.1.clean = d.load.1 := d.clean_load
    have hof : State.ofItem d.item = d.load.1 := (load_eq_ofItem hget).symm
    have h' : Kept (d.acts as') := strokes_inv kept_stroke (strokes_acts d as') h
    have hgrows := h.rounds h hpending hexact hclean hof (.refl d) has'
    refine ⟨fun hget' => ?_, ?_⟩
    · rw [load_eq_ofItem hget']
      exact h.ofItem_eq h' hpending hexact hclean hof hgrows
    · obtain ⟨hs, ht, hi, hsaved⟩ := hgrows
      refine ⟨hs, ht, ?_⟩
      split
      · rename_i hnone
        rw [hi, hnone]
        rfl
      · rename_i hne
        have htaken := h.taken_eq h' hpending ht hsaved _ (List.getLast_mem hne)
        rw [hi, List.getLast?_eq_some_getLast hne, htaken, hclean]
        rfl

/-- A state with a contribution to drop is written, and a later write is refused. What is loaded
then is saved again with the store in order. -/
theorem load_last_written_after_refusal :
    let c : Contribution := ⟨"key", .zero true, true, .zero, "", "", "", "", .zero false, .zero, "",
      .zero⟩
    let s : State := ⟨true, [c, { c with publisherKey := "" }]⟩
    let as : List (Act Memory) := [.save 0 s, .flush 0,
      .outside fun m => { m with setFailure := some ⟨"quota exceeded", []⟩ }, .save 1 .initial,
      .flush 1]
    let d := (Desk.new (Memory.new none) (.clock none) [50, 50]).acts as
    let s' : State := ⟨true, [c]⟩
    let d' := d.acts [.outside fun m => { m with setFailure := none }, .save 0 s', .flush 0]
    (∀ a ∈ as, a.SparesItem) ∧ TookLast s d.trace ∧ d.load.1 = s' ∧ d'.load.1 = s' ∧
      d'.item = some (State.codec.text s') := by
  intro c s as d s' d'
  have has : ∀ a ∈ as, a.SparesItem := by simp [as, Act.SparesItem]
  have hexact : State.codec.Exact s := by
    refine exact_state fun a ha => ?_
    have ha : a = c ∨ a = { c with publisherKey := "" } := by simpa [s] using ha
    rcases ha with rfl | rfl <;> exact exact_contribution (exact_zero true) (exact_zero false)
  have htook : TookLast s d.trace :=
    ⟨[.saved 0 0 0 s, .flushed 0 0], ⟨0, none, 0, itemKey, State.codec.text s.clean, .ok ()⟩, _, 0,
      rfl, rfl, rfl, rfl⟩
  obtain ⟨hlast, -, hrounds⟩ := load_last_written (Memory.new none) (.clock none) [50, 50] as has
  have hload : d.load.1 = s' := (hlast rfl).1 s htook hexact
  have hpending : ∀ i t, d.pending? i = some t → t = d.load.1 := by
    rintro (_ | _ | i) t ⟨⟩
  have hround : Rounds d.load.1 d [.outside fun m => { m with setFailure := none }, .save 0 s',
      .flush 0] := by
    simp +contextual [Rounds, Act.SparesItem, hload]
  obtain ⟨hload', hs, -, hitem⟩ :=
    hrounds rfl (hload ▸ State.exact_clean hexact) hpending _ hround
  have hwritten : d.item = some (State.codec.text s.clean) := rfl
  rw [hwritten, hload, show s.clean = s' from rfl, ite_self] at hitem
  rw [hload] at hload'
  exact ⟨has, htook, hload, hload' rfl, hitem⟩

end Tipping.Payments
