import Mathlib.Data.List.Basic
import Mathlib.Data.List.Find
import Tipping.Proofs.Payments.Debounce

/-!
What operations leave as it is.

The timer never changes, nor do the windows of the savers that are there, and the clock only when
time is let pass. The job of a saver's last save, asleep or over, is left alone by all that is done
to other savers and other jobs: an earlier job of the same saver is outdated, and so is every job
once nothing is pending.
-/

namespace Tipping.Payments

/-- The job that broke off. -/
def Happening.brokenOff? : Happening → Option Nat
  | .brokeOff id => some id
  | _ => none

def brokenOff (hs : List Happening) : List Nat := hs.filterMap Happening.brokenOff?

@[simp] lemma brokenOff_append (hs hs' : List Happening) :
    brokenOff (hs ++ hs') = brokenOff hs ++ brokenOff hs' := List.filterMap_append

@[simp] lemma brokenOff_nil : brokenOff [] = [] := rfl

@[simp] lemma brokenOff_cons (h : Happening) (hs : List Happening) :
    brokenOff (h :: hs) = h.brokenOff?.toList ++ brokenOff hs := by
  cases hb : h.brokenOff? <;> simp [brokenOff, hb]

namespace Desk

variable {σ : Type}

/-! ### Timer, clock and windows -/

structure Steady (d d' : Desk σ) : Prop where
  timer : d'.timer = d.timer
  clock : d'.clock = d.clock
  windows : d'.savers.map Saver.window = d.savers.map Saver.window

lemma Steady.refl (d : Desk σ) : Steady d d := ⟨rfl, rfl, rfl⟩

lemma Steady.trans {d d' d'' : Desk σ} (h : Steady d d') (h' : Steady d' d'') : Steady d d'' :=
  ⟨h'.timer.trans h.timer, h'.clock.trans h.clock, h'.windows.trans h.windows⟩

lemma windows_set {ss : List Saver} {i : Nat} {s s' : Saver} (hs : ss[i]? = some s)
    (hw : s'.window = s.window) : (ss.set i s').map Saver.window = ss.map Saver.window := by
  refine List.ext_getElem? fun k => ?_
  rw [List.getElem?_map, List.getElem?_map, getElem?_set_saver hs]
  split
  · rename_i hk
    rw [← hk, hs, Option.map_some, Option.map_some, hw]
  · rfl

section

variable [ItemStore σ]

lemma steady_attempt {d : Desk σ} {i : Nat} {s s' : Saver} (hs : d.savers[i]? = some s)
    (hw : s'.window = s.window) (job : Option Nat) (state : State) :
    Steady d (d.attempt i s' job state) := by
  obtain ⟨rs, h⟩ := d.attempt_eq i s' job state
  rw [h]
  exact ⟨rfl, rfl, windows_set hs hw⟩

lemma steady_wake (d : Desk σ) (j : Job) : Steady d (d.wake j) := by
  simp only [wake]
  split
  · rename_i hcur
    obtain ⟨s, hs, -⟩ := Option.map_eq_some_iff.mp hcur
    rw [writePending_eq hs]
    cases s.pending with
    | none => exact ⟨rfl, rfl, rfl⟩
    | some state => exact (steady_attempt hs rfl _ state).trans ⟨rfl, rfl, rfl⟩
  · exact ⟨rfl, rfl, rfl⟩

lemma steady_poll (d : Desk σ) (id : Nat) : Steady d (d.poll id) := by
  have slept (j : Job) : Steady d (d.fallAsleep j) := by
    simp only [fallAsleep]
    generalize (d.savers[j.saver]?.map Saver.window).getD 0 = window
    have hnote : Steady d (d.note (.slept j.id window)) := ⟨rfl, rfl, rfl⟩
    have hwake : Steady d ((d.note (.slept j.id window)).wake j) := hnote.trans (steady_wake _ j)
    split
    · exact hwake
    · split
      · exact ⟨rfl, rfl, rfl⟩
      · split
        · exact hwake
        · exact ⟨rfl, rfl, rfl⟩
  simp only [poll]
  split
  · exact .refl d
  · split
    · exact .refl d
    · exact slept _
    · split
      · exact steady_wake d _
      · exact .refl d

lemma steady_flush (d : Desk σ) (i : Nat) : Steady d (d.flush i) := by
  cases hs : d.savers[i]? with
  | none => simpa only [flush, hs] using Steady.refl d
  | some s =>
    cases hp : s.pending with
    | none =>
      rw [flush_idle hs hp]
      exact ⟨rfl, rfl, windows_set hs rfl⟩
    | some state =>
      rw [flush_pending hs hp]
      have hnote : Steady d (d.note (.flushed i d.clock)) := ⟨rfl, rfl, rfl⟩
      have hs' : (d.note (.flushed i d.clock)).savers[i]? = some s := hs
      refine hnote.trans (steady_attempt hs' ?_ none state)
      rfl

end

lemma steady_save (d : Desk σ) (i : Nat) (state : State) : Steady d (d.save i state) := by
  cases hs : d.savers[i]? with
  | none => simpa only [save, hs] using Steady.refl d
  | some s =>
    rw [save_eq hs]
    exact ⟨rfl, rfl, windows_set hs rfl⟩

end Desk

/-- No saver joins, and time stands still. -/
def Act.IsSteady {σ : Type} : Act σ → Prop
  | .join _ => False
  | .advance _ => False
  | _ => True

namespace Desk

variable {σ : Type} [ItemStore σ]

lemma steady_act (d : Desk σ) {a : Act σ} (ha : a.IsSteady) : Steady d (d.act a) := by
  cases a with
  | join | advance => exact ha.elim
  | save i state => exact steady_save d i state
  | release id =>
    simp only [act, release]
    split
    · split <;> exact ⟨rfl, rfl, rfl⟩
    · exact .refl d
  | poll id => exact steady_poll d id
  | flush i => exact steady_flush d i
  | load =>
    simp only [act, load]
    split
    · exact ⟨rfl, rfl, rfl⟩
    · exact ⟨rfl, rfl, rfl⟩
    · split <;> exact ⟨rfl, rfl, rfl⟩
  | _ => exact ⟨rfl, rfl, rfl⟩

lemma steady_acts (d : Desk σ) {as : List (Act σ)} (has : ∀ a ∈ as, a.IsSteady) :
    Steady d (d.acts as) := by
  induction as generalizing d with
  | nil => exact .refl d
  | cons a as ih =>
    rw [List.forall_mem_cons] at has
    exact (steady_act d has.1).trans (ih (d.act a) has.2)

lemma timer_act (d : Desk σ) (a : Act σ) : (d.act a).timer = d.timer := by
  cases a with
  | join | advance => rfl
  | _ =>
    refine (steady_act d ?_).timer
    trivial

lemma timer_acts (d : Desk σ) (as : List (Act σ)) : (d.acts as).timer = d.timer := by
  induction as generalizing d with
  | nil => rfl
  | cons a as ih => exact (ih (d.act a)).trans (timer_act d a)

lemma windows_act {d : Desk σ} {window : Nat} (h : ∀ s ∈ d.savers, s.window = window) {a : Act σ}
    (ha : ∀ w, a = .join w → w = window) : ∀ s ∈ (d.act a).savers, s.window = window := by
  have same (hst : Steady d (d.act a)) : ∀ s ∈ (d.act a).savers, s.window = window := by
    rw [← List.forall_mem_map (f := Saver.window) (P := (· = window))] at h ⊢
    rwa [hst.windows]
  cases a with
  | join w =>
    have hnew : (⟨w, 0, none⟩ : Saver).window = window := ha w rfl
    exact List.forall_mem_append.mpr ⟨h, by simpa using hnew⟩
  | advance ms => exact h
  | _ =>
    refine same (steady_act d ?_)
    trivial

lemma windows_acts {d : Desk σ} {window : Nat} (h : ∀ s ∈ d.savers, s.window = window)
    {as : List (Act σ)} (has : ∀ w, .join w ∈ as → w = window) :
    ∀ s ∈ (d.acts as).savers, s.window = window := by
  induction as generalizing d with
  | nil => exact h
  | cons a as ih =>
    exact ih (windows_act h fun w ha => has w (by simp [ha]))
      fun w hw => has w (List.mem_cons_of_mem a hw)

lemma clock_act (d : Desk σ) {a : Act σ} (ha : ∀ ms, a ≠ .advance ms) :
    (d.act a).clock = d.clock := by
  cases a with
  | join window => rfl
  | advance ms => exact absurd rfl (ha ms)
  | _ =>
    refine (steady_act d ?_).clock
    trivial

lemma clock_acts (d : Desk σ) {as : List (Act σ)} (has : ∀ a ∈ as, ∀ ms, a ≠ .advance ms) :
    (d.acts as).clock = d.clock := by
  induction as generalizing d with
  | nil => rfl
  | cons a as ih =>
    rw [List.forall_mem_cons] at has
    exact (ih (d.act a) has.2).trans (clock_act d has.1)

/-! ### The job of the last save -/

/-- From one desk to the other the saver saved nothing, these were its attempts to write, and the
job broke off or did not. -/
def Went (i id : Nat) (ws : List Write) (broken : Prop) (d d' : Desk σ) : Prop :=
  ∃ hs, d'.trace = d.trace ++ hs ∧ saves i hs = [] ∧ attempts i hs = ws ∧
    (id ∈ brokenOff hs ↔ broken)

/-- From one desk to the other the job is left alone, and so is what its saver is to write. -/
structure Spares (i id : Nat) (d d' : Desk σ) : Prop where
  saver : d'.savers[i]? = d.savers[i]?
  job : d'.job? id = d.job? id
  went : Went i id [] False d d'

section

variable {i id k : Nat}

omit [ItemStore σ]

lemma Went.trans {d d' d'' : Desk σ} {ws ws' : List Write} {broken broken' : Prop}
    (h : Went i id ws broken d d') (h' : Went i id ws' broken' d' d'') :
    Went i id (ws ++ ws') (broken ∨ broken') d d'' := by
  obtain ⟨hs, ht, hsaves, hattempts, hbroken⟩ := h
  obtain ⟨hs', ht', hsaves', hattempts', hbroken'⟩ := h'
  exact ⟨hs ++ hs', by rw [ht', ht, List.append_assoc], by simp [hsaves, hsaves'],
    by rw [attempts_append, hattempts, hattempts'], by simp [hbroken, hbroken']⟩

lemma went_still {d d' : Desk σ} (h : d'.trace = d.trace) : Went i id [] False d d' :=
  ⟨[], by simpa using h, rfl, rfl, by simp⟩

lemma Spares.refl (i id : Nat) (d : Desk σ) : Spares i id d d := ⟨rfl, rfl, went_still rfl⟩

lemma Spares.trans {d d' d'' : Desk σ} (h : Spares i id d d') (h' : Spares i id d' d'') :
    Spares i id d d'' :=
  ⟨h'.saver.trans h.saver, h'.job.trans h.job, by simpa using h.went.trans h'.went⟩

/-- Only what is about other savers and other jobs is noted. -/
lemma spares_noting {d d' : Desk σ} {hs : List Happening} (saver : d'.savers[i]? = d.savers[i]?)
    (job : d'.job? id = d.job? id) (trace : d'.trace = d.trace ++ hs)
    (quiet : ∀ h ∈ hs, h.save? i = none ∧ h.attempt? i = none ∧ h.brokenOff? ≠ some id) :
    Spares i id d d' := by
  refine ⟨saver, job, hs, trace, ?_, ?_, iff_of_false (fun hm => ?_) not_false⟩
  · exact List.filterMap_eq_nil_iff.mpr fun h hh => (quiet h hh).1
  · exact List.filterMap_eq_nil_iff.mpr fun h hh => (quiet h hh).2.1
  · obtain ⟨h, hh, hb⟩ := List.mem_filterMap.mp hm
    exact (quiet h hh).2.2 hb

lemma spares_note (d : Desk σ) {h : Happening} (hsave : h.save? i = none)
    (hattempt : h.attempt? i = none) (hbroken : h.brokenOff? ≠ some id) :
    Spares i id d (d.note h) :=
  spares_noting rfl rfl rfl (by simpa using ⟨hsave, hattempt, hbroken⟩)

lemma job?_remove (d : Desk σ) (hk : k ≠ id) : (d.remove k).job? id = d.job? id := by
  rw [job?, remove, List.find?_filter, job?]
  refine List.find?_congr fun j _ => ?_
  by_cases hj : j.id = id
  · simp [hj, Ne.symm hk]
  · simp [hj]

lemma job?_remove_self (d : Desk σ) (id : Nat) : (d.remove id).job? id = none := by
  simp [job?, remove]

lemma spares_remove (d : Desk σ) (hk : k ≠ id) : Spares i id d (d.remove k) :=
  spares_noting rfl (job?_remove d hk) (List.append_nil _).symm (by simp)

lemma job?_move (d : Desk σ) (k id : Nat) (stage : JobStage) :
    (d.move k stage).job? id =
      (d.job? id).map fun j => if j.id = k then { j with stage } else j := by
  have hid (j : Job) : (if j.id = k then { j with stage } else j).id = j.id := by split <;> rfl
  rw [job?, move, List.find?_map, job?]
  simp only [Function.comp_def, hid]

lemma job?_id {d : Desk σ} {j : Job} (h : d.job? id = some j) : j.id = id := by
  simpa using List.find?_some h

lemma spares_move (d : Desk σ) (hk : k ≠ id) (stage : JobStage) :
    Spares i id d (d.move k stage) := by
  refine spares_noting rfl ?_ (List.append_nil _).symm (by simp)
  rw [job?_move]
  cases hj : d.job? id with
  | none => rfl
  | some j => rw [Option.map_some, if_neg (by rw [job?_id hj]; exact Ne.symm hk)]

lemma spares_setSaver (d : Desk σ) (hk : k ≠ i) (s : Saver) : Spares i id d (d.setSaver k s) :=
  spares_noting (List.getElem?_set_ne hk) rfl (List.append_nil _).symm (by simp)

lemma spares_save {d : Desk σ} (hid : id < d.made) (hk : k ≠ i) (state : State) :
    Spares i id d (d.save k state) := by
  cases hs : d.savers[k]? with
  | none => simpa only [save, hs] using Spares.refl i id d
  | some s =>
    rw [save_eq hs]
    refine spares_noting (List.getElem?_set_ne hk) ?_ rfl ?_
    · simp [job?, List.find?_append, Nat.ne_of_gt hid]
    · simp [Happening.save?, Happening.attempt?, Happening.brokenOff?, hk]

lemma spares_join {d : Desk σ} (hi : i < d.savers.length) (window : Nat) :
    Spares i id d (d.addSaver window) :=
  spares_noting (List.getElem?_append_left hi) rfl (List.append_nil _).symm (by simp)

end

section

variable {i id k : Nat} {d : Desk σ}

lemma spares_attempt (d : Desk σ) (hk : k ≠ i) (s : Saver) (job : Option Nat) (state : State) :
    Spares i id d (d.attempt k s job state) := by
  obtain ⟨rs, h⟩ := d.attempt_eq k s job state
  rw [h]
  refine spares_noting (List.getElem?_set_ne hk) rfl rfl ?_
  simp [Happening.save?, Happening.attempt?, Happening.brokenOff?, hk]

lemma spares_writePending (d : Desk σ) (hk : k ≠ i) (job : Option Nat) :
    Spares i id d (d.writePending k job) := by
  simp only [writePending]
  split
  · exact .refl i id d
  · split
    · exact .refl i id d
    · exact spares_attempt d hk ..

/-- The job has nothing to write for that saver. -/
def Idle (d : Desk σ) (i : Nat) (j : Job) : Prop :=
  j.saver = i → ∀ s, d.savers[i]? = some s → s.generation = j.generation → s.pending = none

lemma spares_wake {j : Job} (hj : j.id ≠ id) (hidle : d.Idle i j) :
    Spares i id d (d.wake j) := by
  have hend {d' : Desk σ} (h : Spares i id d d') :
      Spares i id d ((d'.remove j.id).note (.finished j.id)) :=
    (h.trans (spares_remove d' hj)).trans (spares_note _ rfl rfl (by simp [Happening.brokenOff?]))
  simp only [wake]
  split
  · rename_i hcur
    by_cases hi : j.saver = i
    · obtain ⟨s, hs, hg⟩ := Option.map_eq_some_iff.mp hcur
      have hp : s.pending = none := hidle hi s (hi ▸ hs) hg
      rw [writePending_eq hs, hp]
      exact hend (.refl i id d)
    · exact hend (spares_writePending d hi _)
  · exact hend (.refl i id d)

lemma spares_fallAsleep {j : Job} (hj : j.id ≠ id) (hidle : d.Idle i j) :
    Spares i id d (d.fallAsleep j) := by
  simp only [fallAsleep]
  generalize (d.savers[j.saver]?.map Saver.window).getD 0 = window
  have hs : Spares i id d (d.note (.slept j.id window)) :=
    spares_note d rfl rfl (by simp [Happening.brokenOff?])
  have hwake : Spares i id d ((d.note (.slept j.id window)).wake j) :=
    hs.trans (spares_wake hj hidle)
  split
  · exact hwake
  · split
    · exact (hs.trans (spares_remove _ hj)).trans
        (spares_note _ rfl rfl (by simpa [Happening.brokenOff?] using hj))
    · split
      · exact hwake
      · exact hs.trans (spares_move _ hj _)

lemma spares_poll (hk : k ≠ id) (hidle : ∀ j ∈ d.jobs, j.id ≠ id → d.Idle i j) :
    Spares i id d (d.poll k) := by
  simp only [poll]
  split
  · exact .refl i id d
  · rename_i j hj
    have hne : j.id ≠ id := job?_id hj ▸ hk
    have hidle := hidle j (mem_of_job? hj) hne
    split
    · exact .refl i id d
    · exact spares_fallAsleep hne hidle
    · split
      · exact spares_wake hne hidle
      · exact .refl i id d

lemma spares_flush (d : Desk σ) (hk : k ≠ i) : Spares i id d (d.flush k) := by
  simp only [flush]
  split
  · exact .refl i id d
  · exact ((spares_setSaver d hk _).trans
      (spares_note _ rfl rfl (by simp [Happening.brokenOff?]))).trans (spares_writePending _ hk _)

lemma spares_load (d : Desk σ) : Spares i id d d.load.2 := by
  have got (hs : List Happening) (store : σ)
      (hq : ∀ h ∈ hs, h.save? i = none ∧ h.attempt? i = none ∧ h.brokenOff? ≠ some id) :
      Spares i id d { d with store, trace := d.trace ++ hs } :=
    spares_noting rfl rfl rfl hq
  simp only [load, note, List.append_assoc]
  split
  · exact got _ _ (by simp [Happening.save?, Happening.attempt?, Happening.brokenOff?])
  · exact got _ _ (by simp [Happening.save?, Happening.attempt?, Happening.brokenOff?])
  · split
    · exact got _ _ (by simp [Happening.save?, Happening.attempt?, Happening.brokenOff?])
    · exact got _ _ (by simp [Happening.save?, Happening.attempt?, Happening.brokenOff?])

end

end Desk

end Tipping.Payments
