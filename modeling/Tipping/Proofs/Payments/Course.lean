import Tipping.Proofs.Payments.Latest
import Tipping.Proofs.Payments.Spared

/-!
How a save goes on that nothing replaces.

The invariant follows the job of a saver's last save: either it broke off when it was to fall
asleep, because the timer cannot count so far, or it sleeps until its window is over, or it has
written. Other savers and other jobs do not matter to it: while something is pending the job is in
charge, and otherwise no job has anything to write for the saver.
-/

namespace Tipping.Payments

/-- The operation takes no time and is not about that saver or that job. -/
def Act.Leaves {σ : Type} (i id : Nat) : Act σ → Prop
  | .save k _ => k ≠ i
  | .release k => k ≠ id
  | .drop k => k ≠ id
  | .flush k => k ≠ i
  | .advance _ => False
  | _ => True

lemma Act.Leaves.quick {σ : Type} {i id : Nat} {a : Act σ} (h : a.Leaves i id) :
    ∀ ms, a ≠ .advance ms := by
  rintro ms rfl
  exact h

namespace Desk

variable {σ : Type} {d d' : Desk σ} {i id : Nat} {state : State} {stage : JobStage}

/-! ### The last save -/

/-- The state is the saver's last save, and that is its job. -/
structure Last (d : Desk σ) (i id : Nat) (state : State) : Prop where
  kept : Kept d
  made : id < d.made
  joined : i < d.savers.length
  last : ∃ since, LastSave i id state d.trace since

/-- The last save is still to be written, and its job is at that stage. -/
structure Waiting (d : Desk σ) (i id : Nat) (state : State) (stage : JobStage) : Prop
    extends d.Last i id state where
  pending : d.pending? i = some state
  job : ∃ j, d.job? id = some j ∧ j.stage = stage

/-- If the job is not over, it is asleep and not to wake yet. -/
def Resting (d : Desk σ) (id : Nat) : Prop :=
  ∀ j, d.job? id = some j → ∃ wakeAt, j.stage = .sleeping wakeAt ∧ d.clock < wakeAt

lemma Resting.next (h : d.Resting id) (hsp : Spares i id d d') (hc : d'.clock = d.clock) :
    d'.Resting id := by
  rw [Resting, hsp.job, hc]
  exact h

lemma Last.next {ws : List Write} {broken : Prop} (h : d.Last i id state) (hs : Strokes d d')
    (hw : Went i id ws broken d d') : d'.Last i id state := by
  obtain ⟨since, hsince, before, time, ht⟩ := h.last
  obtain ⟨hs', ht', hsaves, -⟩ := hw
  have hmade : id < d'.made :=
    strokes_inv (fun stroke hm => Nat.lt_of_lt_of_le hm stroke.made_le) hs h.made
  obtain ⟨s, hs'', -⟩ := strokes_window hs (List.getElem?_eq_getElem h.joined)
  exact ⟨strokes_inv kept_stroke hs h.kept, hmade, (List.getElem?_eq_some_iff.mp hs'').1,
    since ++ hs', by simp [hsince, hsaves], before, time, by simp [ht', ht]⟩

lemma Waiting.next (h : d.Waiting i id state stage) (hs : Strokes d d') (hsp : Spares i id d d') :
    d'.Waiting i id state stage where
  toLast := h.toLast.next hs hsp.went
  pending := by rw [pending?, hsp.saver]; exact h.pending
  job := hsp.job ▸ h.job

/-- As long as there is something to write, the job of the last save is in charge of it. -/
lemma Last.inCharge (h : d.Last i id state) (hp : d.pending? i ≠ none) : d.InCharge i id := by
  obtain ⟨since, hl⟩ := h.last
  have howed := h.kept.pending i
  rw [hl.owed_eq] at howed
  split at howed
  · rename_i hnone
    exact h.kept.inCharge i id state (hl.owed_eq.trans (if_pos hnone))
  · exact absurd howed hp

/-- Of the other jobs none has anything to write for the saver. -/
lemma Last.idle (h : d.Last i id state) : ∀ j ∈ d.jobs, j.id ≠ id → d.Idle i j := by
  intro j hj hne hi s hs hg
  by_contra hp
  have hpending : d.pending? i ≠ none := by rwa [pending?, hs]
  exact hne (((h.inCharge hpending).current j hj).mpr ⟨hi, s, hs, hg.symm⟩)

lemma Waiting.upToDate (h : d.Waiting i id state stage) {j : Job} (hj : d.job? id = some j) :
    j.saver = i ∧ ∃ s, d.savers[i]? = some s ∧ s.generation = j.generation ∧
      s.pending = some state := by
  have hcharge := h.toLast.inCharge (by rw [h.pending]; simp)
  obtain ⟨hi, s, hs, hg⟩ := (hcharge.current j (mem_of_job? hj)).mp (job?_id hj)
  have hp := h.pending
  rw [pending?, hs] at hp
  exact ⟨hi, s, hs, hg.symm, hp⟩

/-- The job of the last save goes to another stage. -/
lemma Waiting.move (h : d.Waiting i id state stage) (stage' : JobStage) :
    (d.move id stage').Waiting i id state stage' where
  toLast := h.toLast.next (.single (stroke_move d id stage')) (went_still rfl)
  pending := h.pending
  job := by
    obtain ⟨j, hj, -⟩ := h.job
    exact ⟨_, by rw [job?_move, hj]; rfl, by simp [job?_id hj]⟩

lemma waiting_save (hk : Kept d) {s : Saver} (hs : d.savers[i]? = some s) (state : State) :
    (d.save i state).Waiting i d.made state .held := by
  have hkept : Kept (d.save i state) := kept_stroke (.saved hs state) hk
  obtain ⟨hi, -⟩ := List.getElem?_eq_some_iff.mp hs
  have hnew : d.job? d.made = none :=
    List.find?_eq_none.mpr fun j hj => by simpa using Nat.ne_of_lt (hk.jobs j hj)
  rw [save_eq hs] at hkept ⊢
  refine ⟨⟨hkept, Nat.lt_succ_self _, by simpa using hi, [], rfl, d.trace, d.clock, rfl⟩, ?_, ?_⟩
  · simp [pending?, getElem?_set_saver hs]
  · simp only [job?] at hnew
    exact ⟨⟨d.made, i, s.generation + 1, .held⟩, by simp [job?, List.find?_append, hnew], rfl⟩

/-! ### The course of a save -/

/-- How it has gone on since a save: its job broke off, it sleeps, or it has written. -/
inductive Course (i id : Nat) (state : State) (due : Nat) (fits : Prop) (d₀ d : Desk σ) : Prop where
  | brokeOff (unfit : ¬ fits) (last : d.Last i id state) (gone : d.job? id = none)
      (went : Went i id [] True d₀ d)
  | asleep (fit : fits) (early : d.clock < due) (waiting : d.Waiting i id state (.sleeping due))
      (went : Went i id [] False d₀ d)
  | written (fit : fits) (late : due ≤ d.clock) (last : d.Last i id state)
      (gone : d.job? id = none) (w : Write) (job : w.job = some id) (carries : w.Carries id state)
      (went : Went i id [w] False d₀ d)

variable {due : Nat} {fits : Prop} {d₀ : Desk σ}

lemma resting_of_gone (h : d.job? id = none) : d.Resting id := by
  intro j hj
  rw [h] at hj
  cases hj

lemma Waiting.resting (h : d.Waiting i id state (.sleeping due)) (hearly : d.clock < due) :
    d.Resting id := by
  obtain ⟨j, hj, hstage⟩ := h.job
  intro j' hj'
  cases hj.symm.trans hj'
  exact ⟨due, hstage, hearly⟩

lemma Course.last (h : Course i id state due fits d₀ d) : d.Last i id state := by
  cases h with
  | brokeOff _ last => exact last
  | asleep _ _ waiting => exact waiting.toLast
  | written _ _ last => exact last

lemma Course.resting (h : Course i id state due fits d₀ d) : d.Resting id := by
  cases h with
  | brokeOff _ _ gone => exact resting_of_gone gone
  | asleep _ early waiting => exact waiting.resting early
  | written _ _ _ gone => exact resting_of_gone gone

/-- While its job is spared and not due, a save goes on as it did. -/
lemma Course.spared (h : Course i id state due fits d₀ d) (hs : Strokes d d')
    (hsp : Spares i id d d') (hle : d.clock ≤ d'.clock) (hr : d'.Resting id) :
    Course i id state due fits d₀ d' := by
  cases h with
  | brokeOff unfit last gone went =>
    exact .brokeOff unfit (last.next hs hsp.went) (hsp.job.trans gone)
      (by simpa using went.trans hsp.went)
  | asleep fit early waiting went =>
    have hw := waiting.next hs hsp
    obtain ⟨j, hj, hstage⟩ := hw.job
    obtain ⟨wakeAt, hstage', hearly⟩ := hr j hj
    cases hstage.symm.trans hstage'
    exact .asleep fit hearly hw (by simpa using went.trans hsp.went)
  | written fit late last gone w job carries went =>
    exact .written fit (Nat.le_trans late hle) (last.next hs hsp.went) (hsp.job.trans gone) w job
      carries (by simpa using went.trans hsp.went)

/-- What is noted tells how far a save has come. -/
lemma Course.exists_since (h : Course i id state due fits d₀ d) :
    ∃ since, d.trace = d₀.trace ++ since ∧ (id ∈ brokenOff since ↔ ¬ fits) ∧
      (¬ fits ∨ d.clock < due → attempts i since = []) ∧
      (fits → due ≤ d.clock →
        ∃ w, attempts i since = [w] ∧ w.job = some id ∧ w.Carries id state) := by
  cases h with
  | brokeOff unfit _ _ went =>
    obtain ⟨since, ht, -, hnone, hbroken⟩ := went
    exact ⟨since, ht, by simp [hbroken, unfit], fun _ => hnone, fun fit => absurd fit unfit⟩
  | asleep fit early _ went =>
    obtain ⟨since, ht, -, hnone, hbroken⟩ := went
    exact ⟨since, ht, by simp [hbroken, fit], fun _ => hnone,
      fun _ late => absurd early (Nat.not_lt_of_le late)⟩
  | written fit late _ _ w job carries went =>
    obtain ⟨since, ht, -, hone, hbroken⟩ := went
    refine ⟨since, ht, by simp [hbroken, fit], ?_, fun _ _ => ⟨w, hone, job, carries⟩⟩
    rintro (unfit | early)
    · exact absurd fit unfit
    · exact absurd early (Nat.not_lt_of_le late)

/-! ### Operations that leave it alone -/

variable [ItemStore σ]

lemma Resting.poll_eq (h : d.Resting id) : d.poll id = d := by
  cases hj : d.job? id with
  | none => simp only [poll, hj]
  | some j =>
    obtain ⟨wakeAt, hstage, hearly⟩ := h j hj
    simp only [poll, hj, hstage, if_neg (Nat.not_le_of_lt hearly)]

lemma spares_act (h : d.Last i id state) {a : Act σ} (ha : a.Leaves i id)
    (hpoll : a = .poll id → d.poll id = d) : Spares i id d (d.act a) := by
  cases a with
  | join window => exact spares_join h.joined window
  | save k st => exact spares_save h.made ha st
  | release k =>
    simp only [act, release]
    split
    · split
      · exact spares_move d ha _
      · exact .refl i id d
    · exact .refl i id d
  | poll k =>
    by_cases hk : k = id
    · subst hk
      rw [act, hpoll rfl]
      exact .refl i k d
    · exact spares_poll hk h.idle
  | drop k => exact spares_remove d ha
  | flush k => exact spares_flush d ha
  | load => exact spares_load d
  | advance ms => exact ha.elim
  | outside f => exact spares_noting rfl rfl (List.append_nil _).symm (by simp)
  | log r => exact spares_note d rfl rfl (by simp [Happening.brokenOff?])

lemma spares_acts (h : d.Last i id state) {as : List (Act σ)} (has : ∀ a ∈ as, a.Leaves i id)
    (hpoll : .poll id ∈ as → d.Resting id) : Spares i id d (d.acts as) := by
  induction as generalizing d with
  | nil => exact .refl i id d
  | cons a as ih =>
    rw [List.forall_mem_cons] at has
    have hsp : Spares i id d (d.act a) :=
      spares_act h has.1 fun ha => (hpoll (by simp [ha])).poll_eq
    refine hsp.trans (ih (h.next (strokes_act d a) hsp.went) has.2 fun hm => ?_)
    exact (hpoll (List.mem_cons_of_mem a hm)).next hsp (clock_act d (has.1.quick))

/-- When all jobs are polled, nothing touches the job of the last save before its turn. -/
lemma Waiting.pollAll (h : d.Waiting i id state stage) :
    ∃ d₁ as, d₁.Waiting i id state stage ∧ Spares i id d d₁ ∧ Steady d d₁ ∧
      d.pollAll = (d₁.poll id).acts as ∧ ∀ a ∈ as, a.Leaves i id := by
  obtain ⟨j, hj, -⟩ := h.job
  have hid : id ∈ d.jobs.map Job.id := List.mem_map.mpr ⟨j, mem_of_job? hj, job?_id hj⟩
  obtain ⟨before, after, he, hnot⟩ := List.eq_append_cons_of_mem hid
  let polls (ids : List Nat) : List (Act σ) := ids.map .poll
  have hleaves (ids : List Nat) : ∀ a ∈ polls ids, a.Leaves i id := by
    simp [polls, Act.Leaves]
  have hsp : Spares i id d (d.acts (polls before)) :=
    spares_acts h.toLast (hleaves before) fun hm => absurd (by simpa [polls] using hm) hnot
  have hst : Strokes d (d.acts (polls before)) := strokes_acts d _
  refine ⟨_, polls after, h.next hst hsp, hsp, steady_acts d ?_, ?_, hleaves after⟩
  · simp [polls, Act.IsSteady]
  · have hpolls : (d.jobs.map fun j => (.poll j.id : Act σ)) = polls (d.jobs.map Job.id) :=
      (List.map_map ..).symm
    rw [pollAll_eq_acts, hpolls, he]
    simp [polls, acts, act]

/-! ### The turn of the job -/

lemma job?_wake (d : Desk σ) (j : Job) : (d.wake j).job? j.id = none := job?_remove_self _ j.id

/-- A job that is up to date writes what is pending. -/
lemma exists_went_wake {j : Job} {s : Saver} (hs : d.savers[j.saver]? = some s)
    (hg : s.generation = j.generation) (hp : s.pending = some state) :
    ∃ w, Went j.saver j.id [w] False d (d.wake j) ∧ w.job = some j.id ∧
      w.Carries j.id state := by
  obtain ⟨rs, ha⟩ := d.attempt_eq j.saver s (some j.id) state
  have hwake : d.wake j =
      ((d.attempt j.saver s (some j.id) state).remove j.id).note (.finished j.id) := by
    simp only [wake, hs, Option.map_some, hg, if_true, writePending_eq hs, hp]
  let answer := ItemStore.setItem itemKey (State.codec.text state.clean) d.store
  let w : Write := ⟨j.saver, some j.id, d.clock, itemKey, State.codec.text state.clean, answer.1⟩
  let rest : List Happening := rs.map .logged ++ [.finished j.id]
  have hrest : saves j.saver rest = [] ∧ attempts j.saver rest = [] ∧ brokenOff rest = [] := by
    simp [rest, saves, attempts, brokenOff, Function.comp_def, Happening.save?,
      Happening.attempt?, Happening.brokenOff?]
  refine ⟨w, ⟨.wrote w :: rest, ?_, ?_, ?_, ?_⟩, rfl, rfl, rfl, by simp [w]⟩
  · rw [hwake, ha]
    simp [remove, note, rest, w, answer]
  · simpa [Happening.save?] using hrest.1
  · simp [Happening.attempt?, hrest.2.1, w]
  · simp [Happening.brokenOff?, hrest.2.2]

lemma Course.acts (h : Course i id state due fits d₀ d) {as : List (Act σ)}
    (has : ∀ a ∈ as, a.Leaves i id) : Course i id state due fits d₀ (d.acts as) := by
  have hsp := spares_acts h.last has fun _ => h.resting
  have hc := clock_acts d fun a ha => (has a ha).quick
  exact h.spared (strokes_acts d as) hsp (Nat.le_of_eq hc.symm) (h.resting.next hsp hc)

/-- The job of the last save wakes and writes. -/
lemma Waiting.wake (h : d.Waiting i id state stage) {j : Job} (hj : d.job? id = some j)
    (fit : fits) (late : due ≤ d.clock) (went : Went i id [] False d₀ d) :
    Course i id state due fits d₀ (d.wake j) := by
  obtain ⟨rfl, s, hs, hg, hp⟩ := h.upToDate hj
  cases job?_id hj
  obtain ⟨w, hw, hjob, hcarries⟩ := exists_went_wake hs hg hp
  have hlast := h.toLast.next (strokes_wake (mem_of_job? hj)) hw
  exact .written fit (by rwa [(steady_wake d j).clock]) hlast (job?_wake d j) w hjob hcarries
    (by simpa using went.trans hw)

/-- The job that was asleep when the time was let pass wakes in its turn if it is due. -/
lemma Course.advance (h : Course i id state due fits d₀ d) (ms : Nat) :
    Course i id state due fits d₀ (d.advance ms).pollAll := by
  have hstill : Strokes d (d.advance ms) := .single (stroke_still d d.store _)
  have hsp : Spares i id d (d.advance ms) :=
    spares_noting rfl rfl (List.append_nil _).symm (by simp)
  have hrest (hr : (d.advance ms).Resting id) :
      Course i id state due fits d₀ (d.advance ms).pollAll := by
    rw [pollAll_eq_acts]
    exact (h.spared hstill hsp (Nat.le_add_right _ _) hr).acts (by simp [Act.Leaves])
  cases h with
  | brokeOff _ _ gone => exact hrest (resting_of_gone gone)
  | written _ _ _ gone => exact hrest (resting_of_gone gone)
  | asleep fit _ waiting went =>
    have hw := waiting.next hstill hsp
    by_cases hearly : d.clock + ms < due
    · exact hrest (hw.resting hearly)
    · -- the polls before its turn leave the job asleep, so it is still there to wake
      obtain ⟨d₁, as, hw₁, hsp₁, steady, hpoll, has⟩ := hw.pollAll
      obtain ⟨j, hj, hstage⟩ := hw₁.job
      have hlate : due ≤ d₁.clock := by
        rw [steady.clock]
        exact Nat.le_of_not_lt hearly
      have hwake : d₁.poll id = d₁.wake j := by simp only [poll, hj, hstage, if_pos hlate]
      rw [hpoll, hwake]
      exact (hw₁.wake hj fit hlate (by simpa using went.trans (hsp.trans hsp₁).went)).acts has

/-- The job of the last save is polled for the first time. -/
lemma Waiting.fallAsleep (h : d.Waiting i id state .due) {s : Saver} {limit : Nat}
    (hs : d.savers[i]? = some s) (ht : d.timer = .clock (some limit))
    (went : Went i id [] False d₀ d) :
    Course i id state (d.clock + s.window) (s.window ≤ limit) d₀ (d.poll id) := by
  obtain ⟨j, hj, hstage⟩ := h.job
  obtain ⟨hi, -⟩ := h.upToDate hj
  cases job?_id hj
  let d' : Desk σ := d.note (.slept j.id s.window)
  have hst : Strokes d d' := .single (stroke_note rfl)
  have hsp : Spares i j.id d d' := spares_note d rfl rfl (by simp [Happening.brokenOff?])
  have hw : d'.Waiting i j.id state .due := h.next hst hsp
  have went' : Went i j.id [] False d₀ d' := by simpa using went.trans hsp.went
  have hpoll : d.poll j.id =
      if limit < s.window then (d'.remove j.id).note (.brokeOff j.id)
      else if s.window = 0 then d'.wake j
      else d'.move j.id (.sleeping (d.clock + s.window)) := by
    simp [poll, hj, hstage, Desk.fallAsleep, hi, hs, ht, d', note]
  rw [hpoll]
  split
  · rename_i hunfit
    have hbroke : Went i j.id [] True d' ((d'.remove j.id).note (.brokeOff j.id)) :=
      ⟨[.brokeOff j.id], rfl, rfl, rfl, by simp [Happening.brokenOff?]⟩
    have hstrokes : Strokes d' ((d'.remove j.id).note (.brokeOff j.id)) :=
      .tail (.single (stroke_remove _ _)) (stroke_note rfl)
    exact .brokeOff (Nat.not_le_of_lt hunfit) (hw.toLast.next hstrokes hbroke)
      (job?_remove_self d' j.id) (by simpa using went'.trans hbroke)
  · rename_i hfit
    split
    · rename_i hzero
      exact hw.wake hj (Nat.le_of_not_lt hfit) (Nat.le_of_eq (by simp [hzero, d', note])) went'
    · rename_i hpos
      exact .asleep (Nat.le_of_not_lt hfit) (Nat.lt_add_of_pos_right (Nat.pos_of_ne_zero hpos))
        (hw.move _) went'

lemma course_save (hk : Kept d) {s : Saver} {limit : Nat} (hs : d.savers[i]? = some s)
    (ht : d.timer = .clock (some limit)) (state : State) :
    Course i d.made state (d.clock + s.window) (s.window ≤ limit) (d.save i state)
      ((d.save i state).release d.made).pollAll := by
  have hsaved := waiting_save hk hs state
  obtain ⟨j, hj, hstage⟩ := hsaved.job
  have hrelease : (d.save i state).release d.made = (d.save i state).move d.made .due := by
    simp only [release, hj, hstage, if_true]
  rw [hrelease]
  obtain ⟨d₁, as, hw, hsp, steady, hpoll, has⟩ := (hsaved.move .due).pollAll
  rw [hpoll]
  have hsaver : d₁.savers[i]? = some ⟨s.window, s.generation + 1, some state⟩ := by
    rw [hsp.saver, save_eq hs]
    exact (getElem?_set_saver hs _ i).trans (if_pos rfl)
  have hclock : d₁.clock = d.clock := by rw [steady.clock, save_eq hs]; rfl
  have htimer : d₁.timer = .clock (some limit) := by rw [steady.timer, save_eq hs]; exact ht
  have went : Went i d.made [] False (d.save i state) d₁ := hsp.went
  rw [← hclock]
  exact (hw.fallAsleep hsaver htimer went).acts has

end Desk

end Tipping.Payments
