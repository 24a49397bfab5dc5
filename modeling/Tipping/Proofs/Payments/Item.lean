import Tipping.Proofs.Payments.Stroke

/-!
What becomes of the stored item.

Only an attempt that the store takes changes it, and then to the text of that attempt. So the item
can be told from the trace: it is the text taken last, or what it was before the first.
-/

namespace Tipping.Payments

/-- The text that the store took. -/
def Happening.taken? : Happening → Option String
  | .wrote w => w.outcome.toOption.map fun _ => w.text
  | _ => none

/-- All texts that the store took, in their order. -/
def taken (hs : List Happening) : List String := hs.filterMap Happening.taken?

lemma taken_append (hs hs' : List Happening) : taken (hs ++ hs') = taken hs ++ taken hs' :=
  List.filterMap_append

lemma taken_wrote (w : Write) (rs : List LogRecord) :
    taken (.wrote w :: rs.map .logged) = (w.outcome.toOption.map fun _ => w.text).toList := by
  have hlog : (rs.map Happening.logged).filterMap Happening.taken? = [] := by
    simp [List.filterMap_map, Happening.taken?]
  cases hw : w.outcome <;>
    simp only [taken, List.filterMap_cons, hlog, Happening.taken?, hw, Except.toOption,
      Option.map_none, Option.map_some, Option.toList_none, Option.toList_some]

/-- Nobody else writes the item. -/
def Act.SparesItem : Act Memory → Prop
  | .outside f => ∀ m, (f m).items.lookup itemKey = m.items.lookup itemKey
  | _ => True

namespace Desk

def item (d : Desk Memory) : Option String := d.store.items.lookup itemKey

/-- From one desk to the other the item follows the trace, and only states of this kind were
saved. -/
def Grows (kind : State → Prop) (d d' : Desk Memory) : Prop :=
  ∃ hs, d'.trace = d.trace ++ hs ∧ d'.item = (taken hs).getLast?.or d.item ∧
    ∀ i job time s, .saved i job time s ∈ hs → kind s

variable {kind : State → Prop} {d d' d'' : Desk Memory}

lemma Grows.refl (d : Desk Memory) : Grows kind d d := ⟨[], by simp, rfl, by simp⟩

lemma Grows.trans (h : Grows kind d d') (h' : Grows kind d' d'') : Grows kind d d'' := by
  obtain ⟨hs, ht, hi, hk⟩ := h
  obtain ⟨hs', ht', hi', hk'⟩ := h'
  refine ⟨hs ++ hs', by rw [ht', ht, List.append_assoc], ?_, fun i job time s hm => ?_⟩
  · rw [hi', hi, taken_append, List.getLast?_append, Option.or_assoc]
  · rcases List.mem_append.mp hm with hm | hm
    · exact hk i job time s hm
    · exact hk' i job time s hm

/-- Neither a save nor an attempt, and the item left alone. -/
lemma grows_still (hs : List Happening) (item : d'.item = d.item)
    (trace : d'.trace = d.trace ++ hs)
    (quiet : ∀ h ∈ hs, h.taken? = none ∧ ∀ i job time s, h ≠ .saved i job time s) :
    Grows kind d d' := by
  have hnone : taken hs = [] := List.filterMap_eq_nil_iff.mpr fun h hh => (quiet h hh).1
  exact ⟨hs, trace, by rw [hnone]; exact item,
    fun i job time s hm => absurd rfl ((quiet _ hm).2 i job time s)⟩

lemma grows_note {h : Happening} (hn : h.taken? = none)
    (hs : ∀ i job time s, h ≠ .saved i job time s) :
    Grows kind d (d.note h) :=
  grows_still [h] rfl rfl (by simpa using ⟨hn, hs⟩)

lemma grows_attempt (d : Desk Memory) (i : Nat) (s : Saver) (job : Option Nat) (state : State) :
    Grows kind d (d.attempt i s job state) := by
  obtain ⟨rs, h⟩ := d.attempt_eq i s job state
  rw [h]
  refine ⟨_, rfl, ?_, by simp⟩
  rw [taken_wrote]
  cases hf : d.store.setFailure with
  | some f => simp [ItemStore.setItem, hf, item, Except.toOption]
  | none => simp [ItemStore.setItem, hf, item, Except.toOption, Memory.set, Keyed.lookup_insert]

lemma grows_writePending (d : Desk Memory) (i : Nat) (job : Option Nat) :
    Grows kind d (d.writePending i job) := by
  simp only [writePending]
  split
  · exact .refl d
  split
  · exact .refl d
  · exact grows_attempt ..

lemma grows_wake (d : Desk Memory) (j : Job) : Grows kind d (d.wake j) := by
  have hend (d : Desk Memory) : Grows kind d ((d.remove j.id).note (.finished j.id)) :=
    grows_still [.finished j.id] rfl rfl (by simp [Happening.taken?])
  simp only [wake]
  split
  · exact (grows_writePending ..).trans (hend _)
  · exact hend d

lemma grows_fallAsleep (d : Desk Memory) (j : Job) : Grows kind d (d.fallAsleep j) := by
  simp only [fallAsleep]
  generalize (d.savers[j.saver]?.map Saver.window).getD 0 = window
  have hs : Grows kind d (d.note (.slept j.id window)) := grows_note rfl (by simp)
  have hwake := hs.trans (grows_wake (d.note (.slept j.id window)) j)
  split
  · exact hwake
  split
  · exact hs.trans (grows_still [.brokeOff j.id] rfl rfl (by simp [Happening.taken?]))
  split
  · exact hwake
  · exact hs.trans (grows_still [] rfl (List.append_nil _).symm (by simp))

lemma grows_flush (d : Desk Memory) (i : Nat) : Grows kind d (d.flush i) := by
  simp only [flush]
  split
  · exact .refl d
  · rename_i s _
    have hmoved : Grows kind d
        ((d.setSaver i { s with generation := s.generation + 1 }).note (.flushed i d.clock)) :=
      grows_still [.flushed i d.clock] rfl rfl (by simp [Happening.taken?])
    exact hmoved.trans (grows_writePending ..)

/-- Loading notes what the store says and does nothing else. -/
lemma load_frame (d : Desk Memory) :
    ∃ hs, d.load.2 = { d with trace := d.trace ++ hs } ∧ ∀ h ∈ hs, h.isAside := by
  have hstore : (ItemStore.getItem itemKey d.store).2 = d.store := by
    simp only [ItemStore.getItem]
    split <;> rfl
  simp only [load, note, hstore, List.append_assoc]
  split
  · exact ⟨_, rfl, by simp [Happening.isAside]⟩
  · exact ⟨_, rfl, by simp [Happening.isAside]⟩
  · split
    · exact ⟨_, rfl, by simp [Happening.isAside]⟩
    · exact ⟨_, rfl, by simp [Happening.isAside]⟩

lemma grows_load (d : Desk Memory) : Grows kind d d.load.2 := by
  obtain ⟨hs, h, hq⟩ := d.load_frame
  rw [h]
  refine grows_still hs rfl rfl fun x hx => ?_
  have hx := hq x hx
  cases x with
  | saved => cases hx
  | wrote => cases hx
  | _ => exact ⟨rfl, by simp⟩

lemma grows_poll (d : Desk Memory) (id : Nat) : Grows kind d (d.poll id) := by
  simp only [poll]
  split
  · exact .refl d
  · split
    · exact .refl d
    · exact grows_fallAsleep ..
    · split
      · exact grows_wake ..
      · exact .refl d

/-- What is done to a desk saves nothing but what is to be saved. -/
lemma grows_act {a : Act Memory} (ha : a.SparesItem) (hsave : ∀ i s, a = .save i s → kind s)
    (d : Desk Memory) : Grows kind d (d.act a) := by
  cases a with
  | save i state =>
    cases hs : d.savers[i]? with
    | none => simpa only [act, save, hs] using Grows.refl d
    | some s =>
      rw [act, save_eq hs]
      refine ⟨[.saved i d.made d.clock state], rfl, rfl, fun k job time t hm => ?_⟩
      cases List.mem_singleton.mp hm
      exact hsave i _ rfl
  | poll id => exact grows_poll d id
  | flush i => exact grows_flush d i
  | load => exact grows_load d
  | outside f => exact grows_still [] (ha d.store) (List.append_nil _).symm (by simp)
  | log r => exact grows_note rfl (by simp)
  | release id =>
    have hmove (stage : JobStage) : Grows kind d (d.move id stage) :=
      grows_still [] rfl (List.append_nil _).symm (by simp)
    simp only [act, release]
    split
    · split
      · exact hmove .due
      · exact .refl d
    · exact .refl d
  | _ => exact grows_still [] rfl (List.append_nil _).symm (by simp)

lemma grows_acts {as : List (Act Memory)} (has : ∀ a ∈ as, a.SparesItem)
    (hsave : ∀ i s, .save i s ∈ as → kind s) (d : Desk Memory) : Grows kind d (d.acts as) := by
  induction as generalizing d with
  | nil => exact .refl d
  | cons a as ih =>
    rw [List.forall_mem_cons] at has
    have ha : Grows kind d (d.act a) :=
      grows_act has.1 (fun i s h => hsave i s (h ▸ List.mem_cons_self)) d
    exact ha.trans (ih has.2 (fun i s h => hsave i s (List.mem_cons_of_mem a h)) (d.act a))

/-- **The item can be told from the trace**: it is what the store took last, or else what it was
at first. -/
theorem item_acts (m : Memory) (timer : Timer) (windows : List Nat) {as : List (Act Memory)}
    (has : ∀ a ∈ as, a.SparesItem) :
    let d := (Desk.new m timer windows).acts as
    d.item = (taken d.trace).getLast?.or (m.items.lookup itemKey) := by
  intro d
  have hgrows : Grows (fun _ => True) (Desk.new m timer windows) d :=
    grows_acts has (fun _ _ _ => trivial) _
  obtain ⟨hs, ht, hi, -⟩ := hgrows
  have hs : d.trace = hs := ht
  rw [hs]
  exact hi

end Desk

end Tipping.Payments
