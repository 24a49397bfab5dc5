import Mathlib.Data.List.Pairwise
import Tipping.Proofs.Payments.Latest

/-!
Scheduled writes keep a distance.

A job that writes was made a window before by a save that nothing has replaced since. That save
came after every earlier attempt of its saver, so two writes of jobs are a window apart as well.
The invariant is about what is still to come: when each job was made, that it does not wake too
early, and that it is up to date only while nothing has replaced its save.
-/

namespace Tipping.Payments

def Happening.time? : Happening → Option Nat
  | .saved _ _ time _ => some time
  | .flushed _ time => some time
  | .wrote w => some w.time
  | _ => none

/-- A save or a flush of the saver: jobs that were made before have nothing to do any more. -/
def Happening.replaces (i : Nat) : Happening → Bool
  | .saved k .. => k = i
  | .flushed k _ => k = i
  | _ => false

/-- The job was made at that time, and this has happened since. -/
def MadeAt (i job time : Nat) (tr since : List Happening) : Prop :=
  ∃ before state, tr = before ++ .saved i job time state :: since

/-- The save that made the job was a window ago or more, and nothing has replaced it. -/
def Rested (i job window now : Nat) (tr : List Happening) : Prop :=
  ∃ time since, MadeAt i job time tr since ∧ (∀ h ∈ since, h.replaces i = false) ∧
    time + window ≤ now

/-- Time does not go back. -/
def Timely (tr : List Happening) : Prop := (tr.filterMap Happening.time?).Pairwise (· ≤ ·)

lemma MadeAt.append {i job time : Nat} {tr since : List Happening}
    (h : MadeAt i job time tr since) (hs : List Happening) :
    MadeAt i job time (tr ++ hs) (since ++ hs) := by
  obtain ⟨before, state, rfl⟩ := h
  exact ⟨before, state, by simp⟩

lemma MadeAt.le {i job time now : Nat} {tr since : List Happening}
    (h : MadeAt i job time tr since) (hpast : ∀ x ∈ tr, ∀ t ∈ x.time?, t ≤ now) : time ≤ now := by
  obtain ⟨before, state, rfl⟩ := h
  exact hpast (.saved i job time state) (by simp) time rfl

lemma replaces_of_time? {x : Happening} (hx : x.time? = none) (i : Nat) :
    x.replaces i = false := by
  cases x <;> first | rfl | cases hx

lemma Timely.append {tr hs : List Happening} {now : Nat} (h : Timely tr)
    (hold : ∀ x ∈ tr, ∀ t ∈ x.time?, t ≤ now) (hnew : ∀ x ∈ hs, ∀ t ∈ x.time?, t = now) :
    Timely (tr ++ hs) := by
  have hall {t : Nat} (ht : t ∈ hs.filterMap Happening.time?) : t = now := by
    obtain ⟨x, hx, ht⟩ := List.mem_filterMap.mp ht
    exact hnew x hx t ht
  rw [Timely, List.filterMap_append, List.pairwise_append]
  refine ⟨h, ?_, fun t ht t' ht' => ?_⟩
  · refine List.Pairwise.imp_of_mem (R := fun _ _ => True) (fun ha hb _ => ?_)
      (List.pairwise_of_forall fun _ _ => trivial)
    exact Nat.le_of_eq ((hall ha).trans (hall hb).symm)
  · obtain ⟨x, hx, ht⟩ := List.mem_filterMap.mp ht
    rw [hall ht']
    exact hold x hx t ht

namespace Desk

variable {σ : Type}

/-- What is known of a job: its save, when it wakes at the earliest, and that nothing has replaced
the save if the job is up to date. -/
def OnTime (d : Desk σ) (j : Job) (s : Saver) : Prop :=
  ∃ time since, MadeAt j.saver j.id time d.trace since ∧
    (∀ wakeAt, j.stage = .sleeping wakeAt → time + s.window ≤ wakeAt) ∧
    (j.generation = s.generation → ∀ h ∈ since, h.replaces j.saver = false)

structure Paced (d : Desk σ) : Prop where
  timer : d.timer ≠ .immediate
  past : ∀ x ∈ d.trace, ∀ t ∈ x.time?, t ≤ d.clock
  timely : Timely d.trace
  unique : ∀ j ∈ d.jobs, ∀ j' ∈ d.jobs, j.id = j'.id → j = j'
  jobs : ∀ j ∈ d.jobs, ∃ s, d.savers[j.saver]? = some s ∧ d.OnTime j s
  writes : ∀ before w after, d.trace = before ++ .wrote w :: after → ∀ id, w.job = some id →
    ∃ s, d.savers[w.saver]? = some s ∧ Rested w.saver id s.window w.time before

lemma paced_new (store : σ) (longest : Option Nat) (windows : List Nat) :
    Paced (.new store (.clock longest) windows) := by
  constructor <;> simp [new, Timely]

/-- A job stays on time while its save is not replaced, or once it is out of date. -/
lemma OnTime.next {d d' : Desk σ} {j j₀ : Job} {s s' : Saver} {hs : List Happening}
    (h : d.OnTime j₀ s) (hp : Paced d) (same : j.Same j₀)
    (stage : ∀ wakeAt, j.stage = .sleeping wakeAt →
      j₀.stage = .sleeping wakeAt ∨ d.clock + s.window ≤ wakeAt)
    (trace : d'.trace = d.trace ++ hs) (window : s'.window = s.window)
    (current : j.generation = s'.generation →
      j.generation = s.generation ∧ ∀ x ∈ hs, x.replaces j.saver = false) : d'.OnTime j s' := by
  obtain ⟨time, since, hmade, hwake, hcalm⟩ := h
  rw [← same.saver, ← same.id] at hmade
  refine ⟨time, since ++ hs, trace ▸ hmade.append hs, fun wakeAt hst => ?_, fun hg x hx => ?_⟩
  · rw [window]
    rcases stage wakeAt hst with hst | hle
    · exact hwake wakeAt hst
    · have := hmade.le hp.past
      omega
  · obtain ⟨hg, hquiet⟩ := current hg
    rcases List.mem_append.mp hx with hx | hx
    · rw [same.saver]
      exact hcalm (same.generation ▸ hg) x hx
    · exact hquiet x hx

lemma Paced.next {d d' : Desk σ} {hs : List Happening} (h : Paced d) (timer : d'.timer = d.timer)
    (clock : d.clock ≤ d'.clock) (trace : d'.trace = d.trace ++ hs)
    (now : ∀ x ∈ hs, ∀ t ∈ x.time?, t = d'.clock)
    (savers : ∀ (k : Nat) (s : Saver), d.savers[k]? = some s →
      ∃ s', d'.savers[k]? = some s' ∧ s'.window = s.window)
    (unique : ∀ j ∈ d'.jobs, ∀ j' ∈ d'.jobs, j.id = j'.id → j = j')
    (jobs : ∀ j ∈ d'.jobs, ∃ s, d'.savers[j.saver]? = some s ∧ d'.OnTime j s)
    (wrote : ∀ before w after, hs = before ++ .wrote w :: after → ∀ id, w.job = some id →
      ∃ s, d.savers[w.saver]? = some s ∧
        Rested w.saver id s.window w.time (d.trace ++ before)) : Paced d' := by
  have hpast : ∀ x ∈ d.trace, ∀ t ∈ x.time?, t ≤ d'.clock :=
    fun x hx t ht => Nat.le_trans (h.past x hx t ht) clock
  refine ⟨timer ▸ h.timer, fun x hx t ht => ?_, trace ▸ h.timely.append hpast now, unique, jobs,
    fun before w after ht id hid => ?_⟩
  · rw [trace] at hx
    rcases List.mem_append.mp hx with hx | hx
    · exact hpast x hx t ht
    · exact Nat.le_of_eq (now x hx t ht)
  · obtain ⟨s, hs, hrested⟩ : ∃ s, d.savers[w.saver]? = some s ∧
        Rested w.saver id s.window w.time before := by
      rw [trace] at ht
      rcases List.append_eq_append_iff.mp ht with ⟨a, rfl, ha⟩ | ⟨a, ha, hb⟩
      · exact wrote a w after ha id hid
      · cases a with
        | nil =>
          obtain ⟨s, hs, hr⟩ := wrote [] w after hb.symm id hid
          rw [List.append_nil] at ha hr
          exact ⟨s, hs, ha ▸ hr⟩
        | cons y a =>
          obtain ⟨rfl, -⟩ := List.cons.inj hb
          exact h.writes before w a ha id hid
    obtain ⟨s', hs', hw⟩ := savers w.saver s hs
    exact ⟨s', hs', hw ▸ hrested⟩

/-- Nothing is saved, flushed or written, and no job comes to wake earlier than it should. -/
lemma Paced.aside {d d' : Desk σ} {hs : List Happening} (h : Paced d) (timer : d'.timer = d.timer)
    (clock : d.clock ≤ d'.clock) (trace : d'.trace = d.trace ++ hs)
    (quiet : ∀ x ∈ hs, x.time? = none) (savers : d'.savers = d.savers)
    (unique : ∀ j ∈ d'.jobs, ∀ j' ∈ d'.jobs, j.id = j'.id → j = j')
    (jobs : ∀ j ∈ d'.jobs, ∃ j₀ ∈ d.jobs, j.Same j₀ ∧ ∀ s, d.savers[j.saver]? = some s →
      ∀ wakeAt, j.stage = .sleeping wakeAt →
        j₀.stage = .sleeping wakeAt ∨ d.clock + s.window ≤ wakeAt) : Paced d' := by
  refine h.next timer clock trace (fun x hx t ht => ?_) (fun k s hs => ⟨s, savers ▸ hs, rfl⟩)
    unique (fun j hj => ?_) fun before w after he => ?_
  · rw [quiet x hx] at ht
    cases ht
  · obtain ⟨j₀, hj₀, same, stage⟩ := jobs j hj
    obtain ⟨s, hs, hon⟩ := h.jobs j₀ hj₀
    rw [← same.saver] at hs
    exact ⟨s, savers ▸ hs, hon.next h same (stage s hs) trace rfl fun hg =>
      ⟨hg, fun x hx => replaces_of_time? (quiet x hx) _⟩⟩
  · exact absurd (quiet (.wrote w) (by simp [he])) (by simp [Happening.time?])

/-- The jobs are as they were. -/
lemma Paced.still {d d' : Desk σ} {hs : List Happening} (h : Paced d) (timer : d'.timer = d.timer)
    (clock : d.clock ≤ d'.clock) (trace : d'.trace = d.trace ++ hs)
    (quiet : ∀ x ∈ hs, x.time? = none) (savers : d'.savers = d.savers)
    (jobs : d'.jobs = d.jobs) : Paced d' :=
  h.aside timer clock trace quiet savers (jobs ▸ h.unique) fun j hj =>
    ⟨j, jobs ▸ hj, ⟨rfl, rfl, rfl⟩, fun _ _ _ hst => .inl hst⟩

lemma Paced.note {d : Desk σ} (h : Paced d) {x : Happening} (hx : x.time? = none) :
    Paced (d.note x) :=
  h.still rfl (Nat.le_refl _) rfl (by simpa using hx) rfl rfl

lemma Paced.remove {d : Desk σ} (h : Paced d) (id : Nat) : Paced (d.remove id) := by
  have hmem {j : Job} (hj : j ∈ (d.remove id).jobs) : j ∈ d.jobs := (List.mem_filter.mp hj).1
  exact h.aside rfl (Nat.le_refl _) (List.append_nil _).symm (by simp) rfl
    (fun j hj j' hj' => h.unique j (hmem hj) j' (hmem hj')) fun j hj =>
      ⟨j, hmem hj, ⟨rfl, rfl, rfl⟩, fun _ _ _ hst => .inl hst⟩

/-- A job goes to another stage, without waking too early. -/
lemma Paced.move {d : Desk σ} (h : Paced d) {id : Nat} {stage : JobStage}
    (hstage : ∀ j ∈ d.jobs, j.id = id → ∀ s, d.savers[j.saver]? = some s →
      ∀ wakeAt, stage = .sleeping wakeAt → d.clock + s.window ≤ wakeAt) :
    Paced (d.move id stage) := by
  refine h.aside rfl (Nat.le_refl _) (List.append_nil _).symm (by simp) rfl ?_ fun j hj => ?_
  · intro j hj j' hj' he
    obtain ⟨j₀, hj₀, rfl⟩ := List.mem_map.mp hj
    obtain ⟨j₁, hj₁, rfl⟩ := List.mem_map.mp hj'
    have hid (j : Job) : (if j.id = id then { j with stage } else j).id = j.id := by
      split <;> rfl
    rw [hid, hid] at he
    rw [h.unique j₀ hj₀ j₁ hj₁ he]
  · obtain ⟨j₀, hj₀, rfl⟩ := List.mem_map.mp hj
    by_cases hid : j₀.id = id
    · simp only [if_pos hid]
      exact ⟨j₀, hj₀, ⟨rfl, rfl, rfl⟩, fun s hs wakeAt hst =>
        .inr (hstage j₀ hj₀ hid s hs wakeAt hst)⟩
    · simp only [if_neg hid]
      exact ⟨j₀, hj₀, ⟨rfl, rfl, rfl⟩, fun _ _ _ hst => .inl hst⟩

/-- The jobs stay on time when one saver changes, if what it replaces is out of date. -/
lemma Paced.jobs_set {d d' : Desk σ} (h : Paced d) {i : Nat} {s : Saver} (s' : Saver)
    {hs : List Happening} (saver : d.savers[i]? = some s)
    (savers : d'.savers = d.savers.set i s') (window : s'.window = s.window)
    (trace : d'.trace = d.trace ++ hs) (others : ∀ k ≠ i, ∀ x ∈ hs, x.replaces k = false)
    {j : Job} (hj : j ∈ d.jobs) (own : j.saver = i → j.generation = s'.generation →
      j.generation = s.generation ∧ ∀ x ∈ hs, x.replaces i = false) :
    ∃ s, d'.savers[j.saver]? = some s ∧ d'.OnTime j s := by
  obtain ⟨t, ht, hon⟩ := h.jobs j hj
  have same : j.Same j := ⟨rfl, rfl, rfl⟩
  rw [savers, getElem?_set_saver saver]
  split
  · rename_i hi
    subst hi
    cases saver.symm.trans ht
    exact ⟨s', rfl, hon.next h same (fun _ hst => .inl hst) trace window (own rfl)⟩
  · rename_i hi
    exact ⟨t, ht, hon.next h same (fun _ hst => .inl hst) trace rfl fun hg =>
      ⟨hg, others j.saver (Ne.symm hi)⟩⟩

/-- The jobs that are there are of earlier generations than the next. -/
lemma Kept.earlier {d : Desk σ} (hk : Kept d) {i : Nat} {s : Saver} (hs : d.savers[i]? = some s)
    {j : Job} (hj : j ∈ d.jobs) (hi : j.saver = i) : j.generation ≠ s.generation + 1 := by
  obtain ⟨t, ht, hle⟩ := hk.outdated j hj
  cases (hi ▸ hs).symm.trans ht
  omega

lemma Paced.saved {d : Desk σ} (h : Paced d) (hk : Kept d) {i : Nat} {s : Saver}
    (hs : d.savers[i]? = some s) (state : State) : Paced (d.save i state) := by
  rw [save_eq hs]
  refine h.next rfl (Nat.le_refl _) (rfl : _ = d.trace ++ [.saved i d.made d.clock state]) ?_
    (fun _ _ ht => exists_window_set hs ht _ rfl) ?_ (fun j hj => ?_) fun before w after he => ?_
  · simp [Happening.time?]
  · intro j hj j' hj' he
    rcases List.mem_append.mp hj with hj | hj <;> rcases List.mem_append.mp hj' with hj' | hj'
    · exact h.unique j hj j' hj' he
    · cases List.mem_singleton.mp hj'
      exact absurd (hk.jobs j hj) (Nat.not_lt.mpr (Nat.le_of_eq he.symm))
    · cases List.mem_singleton.mp hj
      exact absurd (hk.jobs j' hj') (Nat.not_lt.mpr (Nat.le_of_eq he))
    · rw [List.mem_singleton.mp hj, List.mem_singleton.mp hj']
  · rcases List.mem_append.mp hj with hold | hnew
    · refine h.jobs_set ⟨s.window, s.generation + 1, some state⟩ hs rfl rfl rfl
        (by simp +contextual [Happening.replaces, eq_comm]) hold fun hi hg => ?_
      exact absurd hg (hk.earlier hs hold hi)
    · cases List.mem_singleton.mp hnew
      exact ⟨_, (getElem?_set_saver hs _ i).trans (if_pos rfl), d.clock, [], ⟨d.trace, state, rfl⟩,
        by simp, by simp⟩
  · have hm : Happening.wrote w ∈ [Happening.saved i d.made d.clock state] := by simp [he]
    simp at hm

/-- A flush moves the saver on, so that no job of it is up to date. -/
lemma Paced.moved {d : Desk σ} (h : Paced d) (hk : Kept d) {i : Nat} {s : Saver}
    (hs : d.savers[i]? = some s) :
    Paced ((d.note (.flushed i d.clock)).setSaver i { s with generation := s.generation + 1 }) := by
  refine h.next rfl (Nat.le_refl _) (rfl : _ = d.trace ++ [.flushed i d.clock]) ?_
    (fun _ _ ht => exists_window_set hs ht _ rfl) h.unique (fun j hj => ?_)
    fun before w after he => ?_
  · simp [Happening.time?, setSaver, Desk.note]
  · refine h.jobs_set { s with generation := s.generation + 1 } hs rfl rfl rfl
      (by simp +contextual [Happening.replaces, eq_comm]) hj fun hi hg => ?_
    exact absurd hg (hk.earlier hs hj hi)
  · have hm : Happening.wrote w ∈ [Happening.flushed i d.clock] := by simp [he]
    simp at hm

variable [ItemStore σ]

lemma Paced.attempt {d : Desk σ} (h : Paced d) {i : Nat} {s : Saver} (hs : d.savers[i]? = some s)
    {job : Option Nat} (hjob : ∀ id, job = some id → Rested i id s.window d.clock d.trace)
    (state : State) : Paced (d.attempt i s job state) := by
  obtain ⟨rs, ha⟩ := d.attempt_eq i s job state
  rw [ha]
  refine h.next rfl (Nat.le_refl _) rfl ?_ (fun _ _ ht => exists_window_set hs ht _ rfl) h.unique
    (fun j hj => ?_) fun before w after he id hid => ?_
  · simp [Happening.time?]
  · refine h.jobs_set { s with pending := none } hs rfl rfl rfl
      (by simp [Happening.replaces]) hj fun _ hg => ⟨hg, ?_⟩
    simp [Happening.replaces]
  · cases before with
    | nil =>
      obtain ⟨hw, -⟩ := List.cons.inj he
      cases hw
      exact ⟨s, hs, by simpa using hjob id hid⟩
    | cons x before =>
      have hm : Happening.wrote w ∈ rs.map Happening.logged := by
        rw [(List.cons.inj he).2]
        simp
      simp at hm

lemma Paced.writePending {d : Desk σ} (h : Paced d) {i : Nat} {s : Saver}
    (hs : d.savers[i]? = some s) {job : Option Nat}
    (hjob : ∀ id, job = some id → Rested i id s.window d.clock d.trace) :
    Paced (d.writePending i job) := by
  rw [writePending_eq hs]
  split
  · exact h
  · exact h.attempt hs hjob _

lemma Paced.wake {d : Desk σ} (h : Paced d) {j : Job} {s : Saver}
    (hs : d.savers[j.saver]? = some s)
    (hrest : j.generation = s.generation → Rested j.saver j.id s.window d.clock d.trace) :
    Paced (d.wake j) := by
  simp only [Desk.wake, hs, Option.map_some, Option.some.injEq]
  split
  · rename_i hg
    refine ((h.writePending hs ?_).remove j.id).note rfl
    rintro id ⟨⟩
    exact hrest hg.symm
  · exact (h.remove j.id).note rfl

lemma Paced.fallAsleep {d : Desk σ} (h : Paced d) {j : Job} (hj : j ∈ d.jobs) :
    Paced (d.fallAsleep j) := by
  obtain ⟨s, hs, time, since, hmade, -, hcalm⟩ := h.jobs j hj
  have hm : Paced (d.note (.slept j.id s.window)) := h.note rfl
  have hs' : (d.note (.slept j.id s.window)).savers[j.saver]? = some s := hs
  simp only [Desk.fallAsleep, hs, Option.map_some, Option.getD_some]
  split
  · exact absurd ‹_› h.timer
  · split
    · exact (hm.remove j.id).note rfl
    · split
      · rename_i hzero
        refine hm.wake hs' fun hg => ⟨time, _, hmade.append [.slept j.id s.window], ?_, ?_⟩
        · intro x hx
          rcases List.mem_append.mp hx with hx | hx
          · exact hcalm hg x hx
          · cases List.mem_singleton.mp hx
            rfl
        · rw [hzero]
          exact hmade.le h.past
      · refine hm.move fun j' hj' he t ht wakeAt hst => ?_
        cases h.unique j' hj' j hj he
        cases hs.symm.trans ht
        cases hst
        exact Nat.le_refl _

lemma Paced.poll {d : Desk σ} (h : Paced d) (id : Nat) : Paced (d.poll id) := by
  simp only [Desk.poll]
  split
  · exact h
  · rename_i j hj
    split
    · exact h
    · exact h.fallAsleep (mem_of_job? hj)
    · rename_i wakeAt hst
      split
      · rename_i hle
        obtain ⟨s, hs, time, since, hmade, hwake, hcalm⟩ := h.jobs j (mem_of_job? hj)
        exact h.wake hs fun hg =>
          ⟨time, since, hmade, hcalm hg, Nat.le_trans (hwake wakeAt hst) hle⟩
      · exact h

lemma Paced.flush {d : Desk σ} (h : Paced d) (hk : Kept d) (i : Nat) : Paced (d.flush i) := by
  cases hs : d.savers[i]? with
  | none => simpa only [Desk.flush, hs] using h
  | some s =>
    rw [flush_eq hs]
    exact (h.moved hk hs).writePending ((getElem?_set_saver hs _ i).trans (if_pos rfl)) (by simp)

lemma paced_act {d : Desk σ} (h : Paced d) (hk : Kept d) (a : Act σ) : Paced (d.act a) := by
  cases a with
  | join window =>
    refine h.next rfl (Nat.le_refl _) ((List.append_nil _).symm : _ = d.trace ++ []) (by simp) ?_
      h.unique (fun j hj => ?_) (by simp)
    · exact fun k s hs => (Stroke.joined d window).window_eq hs
    · obtain ⟨s, hs, hon⟩ := h.jobs j hj
      obtain ⟨hi, -⟩ := List.getElem?_eq_some_iff.mp hs
      exact ⟨s, by rwa [act, addSaver, List.getElem?_append_left hi], hon⟩
  | save i state =>
    cases hs : d.savers[i]? with
    | none => simpa only [act, save, hs] using h
    | some s => exact h.saved hk hs state
  | release id =>
    simp only [act, release]
    split
    · split
      · exact h.move (by simp)
      · exact h
    · exact h
  | poll id => exact h.poll id
  | drop id => exact h.remove id
  | flush i => exact h.flush hk i
  | load =>
    have got (hs : List Happening) (hq : ∀ x ∈ hs, x.time? = none) (store : σ) :
        Paced { d with store, trace := d.trace ++ hs } :=
      h.still rfl (Nat.le_refl _) rfl hq rfl rfl
    simp only [act, load, Desk.note, List.append_assoc]
    split
    · exact got _ (by simp [Happening.time?]) _
    · exact got _ (by simp [Happening.time?]) _
    · split
      · exact got _ (by simp [Happening.time?]) _
      · exact got _ (by simp [Happening.time?]) _
  | advance ms =>
    exact h.still rfl (Nat.le_add_right _ _) (List.append_nil _).symm (by simp) rfl rfl
  | outside f => exact h.still rfl (Nat.le_refl _) (List.append_nil _).symm (by simp) rfl rfl
  | log r => exact h.note rfl

lemma paced_acts (store : σ) (longest : Option Nat) (windows : List Nat) (as : List (Act σ)) :
    Paced ((new store (.clock longest) windows).acts as) := by
  induction as using List.reverseRecOn with
  | nil => exact paced_new store longest windows
  | append_singleton as a ih =>
    rw [acts_append]
    exact paced_act ih (kept_acts store _ windows as) a

end Desk

/-- A job's write comes a window after every earlier attempt of its saver. -/
lemma Rested.le_of_wrote {i id window now : Nat} {before mid : List Happening} {w w' : Write}
    (h : Rested i id window now (before ++ .wrote w :: mid)) (hw : w.saver = i)
    (hw' : w'.saver = i) (ho : Orderly (before ++ .wrote w :: mid ++ [.wrote w']))
    (ht : Timely (before ++ .wrote w :: mid)) : w.time + window ≤ now := by
  obtain ⟨time, since, ⟨b, state, heq⟩, hcalm, hle⟩ := h
  have hsaves : saves i since = [] := by
    refine List.filterMap_eq_nil_iff.mpr fun x hx => ?_
    have := hcalm x hx
    cases x with
    | saved k => simpa [Happening.replaces, Happening.save?] using this
    | _ => rfl
  have hlast : LastSave i id state (before ++ .wrote w :: mid) since := ⟨hsaves, b, time, heq⟩
  -- the save was not handed over before, so the earlier attempt was not after it
  have hnone : attempts i since = [] := by
    obtain ⟨job, state', howed, -⟩ := ho _ w' [] rfl
    rw [hw', hlast.owed_eq] at howed
    split at howed
    · assumption
    · cases howed
  have hb : Happening.wrote w ∈ b := by
    have hm : Happening.wrote w ∈ b ++ .saved i id time state :: since := heq ▸ by simp
    rcases List.mem_append.mp hm with hm | hm
    · exact hm
    · rcases List.mem_cons.mp hm with hm | hm
      · cases hm
      · have hin : w ∈ attempts i since :=
          List.mem_filterMap.mpr ⟨_, hm, by simp [Happening.attempt?, hw]⟩
        rw [hnone] at hin
        cases hin
  have hearlier : w.time ≤ time := by
    rw [heq, Timely, List.filterMap_append, List.pairwise_append] at ht
    exact ht.2.2 _ (List.mem_filterMap.mpr ⟨_, hb, rfl⟩) _ (by simp [Happening.time?])
  omega

/-- If every job that writes has rested, then the writes of jobs are spaced. -/
lemma spaced_of_rested {i window : Nat} {tr : List Happening} (ho : Orderly tr) (ht : Timely tr)
    (h : ∀ before w after id, tr = before ++ .wrote w :: after → w.saver = i → w.job = some id →
      Rested i id window w.time before) :
    ((attempts i tr).filter (·.job.isSome)).Pairwise fun w w' => w.time + window ≤ w'.time := by
  induction tr using List.reverseRecOn with
  | nil => exact .nil
  | append_singleton tr x ih =>
    have htimely : Timely tr := by
      rw [Timely, List.filterMap_append] at ht
      exact (List.pairwise_append.mp ht).1
    rw [attempts_append, List.filter_append, List.pairwise_append]
    refine ⟨ih ho.of_append htimely fun before w after id he => ?_, ?_, fun w hw w' hw' => ?_⟩
    · exact h before w (after ++ [x]) id (by simp [he])
    · cases hx : x.attempt? i with
      | none => simp [hx]
      | some w => cases hjob : w.job <;> simp [hx, hjob]
    · obtain ⟨hi, before, mid, rfl⟩ := mem_attempts (List.mem_filter.mp hw).1
      obtain ⟨hw', hjob⟩ := List.mem_filter.mp hw'
      obtain ⟨id, hid⟩ := Option.isSome_iff_exists.mp hjob
      obtain ⟨rfl, hi'⟩ : x = .wrote w' ∧ w'.saver = i :=
        attempt?_eq_some (by simpa using hw')
      exact (h _ w' [] id rfl hi' hid).le_of_wrote hi hi' ho htimely

open Desk

/-- **Scheduled writes keep a distance.** On a clock, when a job attempts to write, the save that
made it was at least a window ago, and its saver has been neither saved nor flushed since; and any
two attempts of jobs of one saver are at least a window apart. -/
theorem scheduled_writes_spaced {σ : Type} [ItemStore σ] (store : σ) (longest : Option Nat)
    (windows : List Nat) (as : List (Act σ)) (i : Nat) (s : Saver)
    (hs : ((Desk.new store (.clock longest) windows).acts as).savers[i]? = some s) :
    let tr := ((Desk.new store (.clock longest) windows).acts as).trace
    (∀ before w after id, tr = before ++ .wrote w :: after → w.saver = i → w.job = some id →
      Rested i id s.window w.time before) ∧
    ((attempts i tr).filter (·.job.isSome)).Pairwise fun w w' => w.time + s.window ≤ w'.time := by
  intro tr
  have hp := paced_acts store longest windows as
  have ho : Orderly tr := (kept_acts store (.clock longest) windows as).orderly
  have hrested : ∀ before w after id, tr = before ++ .wrote w :: after → w.saver = i →
      w.job = some id → Rested i id s.window w.time before := by
    rintro before w after id htr rfl hid
    obtain ⟨t, ht, hr⟩ := hp.writes before w after htr id hid
    cases hs.symm.trans ht
    exact hr
  exact ⟨hrested, spaced_of_rested ho hp.timely hrested⟩

/-- The second save replaces the first, which was polled late; a third is written a window after
the second. -/
theorem scheduled_writes_spaced_of_three :
    let d := (Desk.new (Memory.new none) (.clock none) [50]).acts [.save 0 .initial, .advance 7,
      .release 0, .poll 0, .save 0 .initial, .release 1, .poll 1, .advance 50, .poll 0, .poll 1,
      .save 0 .initial, .release 2, .poll 2, .advance 60, .poll 2]
    d.savers[0]? = some ⟨50, 3, none⟩ ∧
      (attempts 0 d.trace).map (fun w => (w.job, w.time)) = [(some 1, 57), (some 2, 117)] ∧
      ((attempts 0 d.trace).filter (·.job.isSome)).Pairwise fun w w' => w.time + 50 ≤ w'.time := by
  intro d
  have hs : d.savers[0]? = some ⟨50, 3, none⟩ := by decide +kernel
  exact ⟨hs, by decide +kernel, (scheduled_writes_spaced _ _ _ _ 0 ⟨50, 3, none⟩ hs).2⟩

end Tipping.Payments
