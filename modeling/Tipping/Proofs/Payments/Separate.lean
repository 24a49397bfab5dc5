import Tipping.Proofs.Payments.Alone
import Tipping.Proofs.Payments.Item

/-!
Savers that share a store do not disturb each other.

What a saver writes and when is decided by the run as that saver sees it, so two runs that look
alike to it have the same attempts. The one thing that savers share is the item, and it is simply
what was put there last.
-/

namespace Tipping.Payments

/-- What others put in place of the item. -/
def Event.put? : Event → Option (Option String)
  | .outside (.set key value) => if key = itemKey then some (some value) else none
  | .outside (.unset key) => if key = itemKey then some none else none
  | _ => none

lemma Event.sparesItem_act {e : Event} (h : e.put? = none) : e.act.SparesItem := by
  cases e with
  | outside c =>
    intro m
    cases c with
    | set key value =>
      have hk : itemKey ≠ key := by
        rintro rfl
        simp [put?] at h
      exact (Keyed.lookup_insert ..).trans (if_neg hk)
    | unset key =>
      have hk : itemKey ≠ key := by
        rintro rfl
        simp [put?] at h
      exact (Keyed.lookup_erase ..).trans (if_neg hk)
    | _ => rfl
  | _ => trivial

namespace Desk

/-- What has been put in place of the item, one after another: the texts that the store took, and
what others put there. -/
def puts (d : Desk Memory) : List Event → List (Option String)
  | [] => []
  | e :: es =>
    let put :=
      match e.put? with
      | some item => [item]
      | none => (taken ((d.step e).trace.drop d.trace.length)).map some
    put ++ (d.step e).puts es

lemma item_step (d : Desk Memory) (e : Event) :
    (d.step e).item = (d.puts [e]).getLast?.getD d.item := by
  simp only [puts, List.append_nil]
  cases he : e.put? with
  | some o =>
    cases e with
    | outside c =>
      cases c with
      | set key value =>
        simp only [Event.put?] at he
        split at he
        · cases he
          exact (Keyed.lookup_insert ..).trans (if_pos (Eq.symm ‹_›))
        · cases he
      | unset key =>
        simp only [Event.put?] at he
        split at he
        · cases he
          exact (Keyed.lookup_erase ..).trans (if_pos (Eq.symm ‹_›))
        · cases he
      | _ => cases he
    | _ => cases he
  | none =>
    have hact : d.step e = d.act e.act := d.run_eq_acts [e]
    obtain ⟨hs, ht, hi, -⟩ : Grows (fun _ => True) d (d.act e.act) :=
      grows_act (Event.sparesItem_act he) (fun _ _ _ => trivial) d
    rw [hact, hi, ht, List.drop_left]
    cases hl : (taken hs).getLast? <;> simp [hl]

lemma item_run (d : Desk Memory) (es : List Event) :
    (d.run es).item = (d.puts es).getLast?.getD d.item := by
  induction es generalizing d with
  | nil => rfl
  | cons e es ih =>
    rw [run_cons, ih, item_step]
    simp only [puts, List.append_nil, List.getLast?_append]
    cases ((d.step e).puts es).getLast? <;> rfl

end Desk

open Desk

/-- **Savers are separate.** What a saver writes and when is decided by what is done to it and to
its own jobs, by its window and by the clock: two runs that look alike to a saver have the same
attempts of it, whatever other savers there are, whatever the stores hold or refuse, and whatever
is loaded or done to the stores by others. And the item is at every point what was put in its
place last, by the store for any of the savers or by others. -/
theorem savers_separate {σ σ' : Type} [ItemStore σ] [ItemStore σ'] (timer : Timer) :
    (∀ (store : σ) (store' : σ') (windows windows' : List Nat) (i i' : Nat) (as : List (Act σ))
      (as' : List (Act σ')),
      let d := Desk.new store timer windows
      let d' := Desk.new store' timer windows'
      (∀ s ∈ (d.acts as).savers[i]?, ∀ s' ∈ (d'.acts as').savers[i']?, s.window = s'.window) →
        d.view i as = d'.view i' as' →
        (attempts i (d.acts as).trace).map Write.shown =
          (attempts i' (d'.acts as').trace).map Write.shown) ∧
    ∀ (m : Memory) (windows : List Nat) (es : List Event),
      let d := Desk.new m timer windows
      (d.run es).item = (d.puts es).getLast?.getD (m.items.lookup itemKey) := by
  refine ⟨fun store store' windows windows' i i' as as' => ?_, fun m windows es => item_run _ es⟩
  intro d d' hw hview
  -- both runs have the window of the one in which the saver is there
  obtain ⟨window, hwindow, hwindow'⟩ : ∃ window,
      (∀ s, (d.acts as).savers[i]? = some s → s.window = window) ∧
        ∀ s, (d'.acts as').savers[i']? = some s → s.window = window := by
    cases hs : (d.acts as).savers[i]? with
    | none =>
      cases hs' : (d'.acts as').savers[i']? with
      | none => exact ⟨0, by simp, by simp⟩
      | some s' => exact ⟨s'.window, by simp, by simp⟩
    | some s => exact ⟨s.window, by simp, fun s' hs' => (hw s hs s' hs').symm⟩
  obtain ⟨ids, m⟩ := mirrors_acts store timer windows as hwindow
  obtain ⟨ids', m'⟩ := mirrors_acts store' timer windows' as' hwindow'
  exact m.attempts.symm.trans (hview ▸ m'.attempts)

/-- Next to a saver with a shorter window or alone on a store that refuses everything, a saver
makes the same attempt. -/
theorem savers_separate_for_two :
    let d := Desk.new (Memory.new none) (.clock none) [50, 10]
    let d' := Desk.new (Memory.new (some "")) (.clock none) [50]
    let as : List (Act Memory) := [.save 1 .initial, .save 0 .initial, .release 0, .release 1,
      .poll 0, .poll 1, .advance 50, .poll 0, .flush 1, .poll 1]
    let as' : List (Act Memory) := [.outside fun m => Change.apply m (.unavailable true),
      .save 0 .initial, .load, .release 0, .poll 0, .advance 50, .poll 0]
    (∀ s ∈ (d.acts as).savers[0]?, ∀ s' ∈ (d'.acts as').savers[0]?, s.window = s'.window) ∧
      d.view 0 as = d'.view 0 as' ∧
      (attempts 0 (d.acts as).trace).map Write.shown =
        [(50, itemKey, State.codec.text State.initial)] ∧
      (attempts 0 (d'.acts as').trace).map Write.shown =
        [(50, itemKey, State.codec.text State.initial)] := by
  intro d d' as as'
  have hw : ∀ s ∈ (d.acts as).savers[0]?, ∀ s' ∈ (d'.acts as').savers[0]?,
      s.window = s'.window := by decide +kernel
  have hview : d.view 0 as = d'.view 0 as' := by decide +kernel
  have hd : (attempts 0 (d.acts as).trace).map Write.shown =
      [(50, itemKey, State.codec.text State.initial)] := by decide +kernel
  have h := (savers_separate (.clock none)).1 (Memory.new none) (Memory.new (some "")) [50, 10] [50]
    0 0 as as' hw hview
  exact ⟨hw, hview, hd, h.symm.trans hd⟩

end Tipping.Payments
