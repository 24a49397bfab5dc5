import Mathlib.Logic.Relation
import Mathlib.Tactic.Lemma
import Tipping.Payments.Memory

/-!
What the operations of a desk come to.

Each is a sequence of a few strokes: something is saved, the pending state is handed over, a
saver with nothing pending moves on to its next generation, a job ends, and what matters to no
saver. So what every stroke keeps, a run of any operations keeps.
-/

namespace Tipping.Payments

/-- No save, no attempt to write and no end of a job. -/
def Happening.isAside : Happening → Bool
  | .saved .. => false
  | .wrote _ => false
  | .finished _ => false
  | _ => true

/-- The same job, perhaps at another stage. -/
structure Job.Same (j j₀ : Job) : Prop where
  id : j.id = j₀.id
  saver : j.saver = j₀.saver
  generation : j.generation = j₀.generation

namespace Desk

variable {σ : Type}

/-- The steps that operations are made of. -/
inductive Stroke : Desk σ → Desk σ → Prop where
  | aside {d d' : Desk σ} (hs : List Happening) (savers : d'.savers = d.savers)
      (made : d'.made = d.made)
      (jobs : ∀ j ∈ d'.jobs, ∃ j₀ ∈ d.jobs, j.Same j₀)
      (trace : d'.trace = d.trace ++ hs) (quiet : ∀ h ∈ hs, h.isAside) : Stroke d d'
  | joined (d : Desk σ) (window : Nat) : Stroke d (d.addSaver window)
  | saved {d : Desk σ} {i : Nat} {s : Saver} (saver : d.savers[i]? = some s) (state : State) :
      Stroke d (d.save i state)
  | wrote {d : Desk σ} {s : Saver} {state : State} {generation : Nat} {w : Write}
      (saver : d.savers[w.saver]? = some s) (pending : s.pending = some state)
      (generation_le : s.generation ≤ generation)
      (job : ∀ id, w.job = some id → ∃ j ∈ d.jobs,
        j.id = id ∧ j.saver = w.saver ∧ j.generation = s.generation)
      (key : w.key = itemKey) (text : w.text = State.codec.text state.clean) (store : σ) :
      Stroke d { d with
        store
        savers := d.savers.set w.saver ⟨s.window, generation, none⟩
        trace := d.trace ++ [.wrote w] }
  | moved {d : Desk σ} {i : Nat} {s : Saver} (saver : d.savers[i]? = some s)
      (idle : s.pending = none) :
      Stroke d (d.setSaver i { s with generation := s.generation + 1 })
  | finished {d : Desk σ} {j : Job} (live : j ∈ d.jobs)
      (idle : ∀ s, d.savers[j.saver]? = some s → s.generation = j.generation → s.pending = none) :
      Stroke d ((d.remove j.id).note (.finished j.id))

abbrev Strokes : Desk σ → Desk σ → Prop := Relation.ReflTransGen Stroke

lemma save_eq {d : Desk σ} {i : Nat} {s : Saver} (hs : d.savers[i]? = some s) (state : State) :
    d.save i state = { d with
      savers := d.savers.set i ⟨s.window, s.generation + 1, some state⟩
      jobs := d.jobs ++ [⟨d.made, i, s.generation + 1, .held⟩]
      made := d.made + 1
      trace := d.trace ++ [.saved i d.made d.clock state] } := by
  simp [save, hs, setSaver, note]

lemma getElem?_set_saver {ss : List Saver} {i : Nat} {s : Saver} (hs : ss[i]? = some s)
    (s' : Saver) (k : Nat) : (ss.set i s')[k]? = if i = k then some s' else ss[k]? := by
  obtain ⟨hi, -⟩ := List.getElem?_eq_some_iff.mp hs
  simp [List.getElem?_set, hi]

lemma exists_window_set {ss : List Saver} {i k : Nat} {s t : Saver} (hs : ss[i]? = some s)
    (ht : ss[k]? = some t) (s' : Saver) (hw : s'.window = s.window) :
    ∃ t', (ss.set i s')[k]? = some t' ∧ t'.window = t.window := by
  rw [getElem?_set_saver hs]
  split
  · rename_i hik
    cases (hik ▸ hs).symm.trans ht
    exact ⟨s', rfl, hw⟩
  · exact ⟨t, ht, rfl⟩

/-! ### Every stroke -/

lemma Stroke.made_le {d d' : Desk σ} (h : Stroke d d') : d.made ≤ d'.made := by
  cases h with
  | aside _ _ made => exact Nat.le_of_eq made.symm
  | saved saver state => rw [save_eq saver]; exact Nat.le_succ _
  | _ => exact Nat.le_refl _

lemma getElem?_set_le {ss : List Saver} {i k : Nat} {s s' t : Saver} (hs : ss[i]? = some s)
    (hle : s.generation ≤ s'.generation) (ht : ss[k]? = some t) :
    ∃ t', (ss.set i s')[k]? = some t' ∧ t.generation ≤ t'.generation := by
  rw [getElem?_set_saver hs]
  split
  · rename_i hik
    subst hik
    rw [hs] at ht
    cases ht
    exact ⟨s', rfl, hle⟩
  · exact ⟨t, ht, Nat.le_refl _⟩

/-- A saver stays, and its generation never goes back. -/
lemma Stroke.generation_le {d d' : Desk σ} (h : Stroke d d') {k : Nat} {s : Saver}
    (hs : d.savers[k]? = some s) :
    ∃ s', d'.savers[k]? = some s' ∧ s.generation ≤ s'.generation := by
  cases h with
  | aside _ savers => exact ⟨s, savers ▸ hs, Nat.le_refl _⟩
  | joined window =>
    obtain ⟨hk, -⟩ := List.getElem?_eq_some_iff.mp hs
    exact ⟨s, by rwa [addSaver, List.getElem?_append_left hk], Nat.le_refl _⟩
  | saved saver state => rw [save_eq saver]; exact getElem?_set_le saver (Nat.le_succ _) hs
  | wrote saver _ hle => exact getElem?_set_le saver hle hs
  | moved saver => exact getElem?_set_le saver (Nat.le_succ _) hs
  | finished => exact ⟨s, hs, Nat.le_refl _⟩

/-- A saver keeps its window. -/
lemma Stroke.window_eq {d d' : Desk σ} (h : Stroke d d') {k : Nat} {s : Saver}
    (hs : d.savers[k]? = some s) : ∃ s', d'.savers[k]? = some s' ∧ s'.window = s.window := by
  cases h with
  | aside _ savers => exact ⟨s, savers ▸ hs, rfl⟩
  | joined window =>
    obtain ⟨hk, -⟩ := List.getElem?_eq_some_iff.mp hs
    exact ⟨s, by rwa [addSaver, List.getElem?_append_left hk], rfl⟩
  | saved saver state => rw [save_eq saver]; exact exists_window_set saver hs _ rfl
  | wrote saver => exact exists_window_set saver hs _ rfl
  | moved saver => exact exists_window_set saver hs _ rfl
  | finished => exact ⟨s, hs, rfl⟩

/-- A job was there before, or it is the job of a save and has its saver's generation. -/
lemma Stroke.job_cases {d d' : Desk σ} (h : Stroke d d') {j : Job} (hj : j ∈ d'.jobs) :
    (∃ j₀ ∈ d.jobs, j.Same j₀) ∨
      (j.id = d.made ∧ d'.made = d.made + 1 ∧
        ∃ s, d'.savers[j.saver]? = some s ∧ j.generation = s.generation) := by
  cases h with
  | aside _ _ _ jobs => exact .inl (jobs j hj)
  | @saved i s saver state =>
    rw [save_eq saver] at hj ⊢
    rcases List.mem_append.mp hj with hj | hj
    · exact .inl ⟨j, hj, rfl, rfl, rfl⟩
    · rw [List.mem_singleton] at hj
      subst hj
      exact .inr ⟨rfl, rfl, _, (getElem?_set_saver saver _ i).trans (if_pos rfl), rfl⟩
  | finished => exact .inl ⟨j, (List.mem_filter.mp hj).1, rfl, rfl, rfl⟩
  | _ => exact .inl ⟨j, hj, rfl, rfl, rfl⟩

/-- What every stroke keeps, all of them keep. -/
lemma strokes_inv {P : Desk σ → Prop} (hstroke : ∀ {d d'}, Stroke d d' → P d → P d')
    {d d' : Desk σ} (hs : Strokes d d') (h : P d) : P d' := by
  induction hs with
  | refl => exact h
  | tail _ stroke ih => exact hstroke stroke ih

lemma strokes_window {d d' : Desk σ} (hs : Strokes d d') {k : Nat} {s : Saver}
    (h : d.savers[k]? = some s) : ∃ s', d'.savers[k]? = some s' ∧ s'.window = s.window :=
  strokes_inv (P := fun d => ∃ s', d.savers[k]? = some s' ∧ s'.window = s.window)
    (fun stroke ⟨_, h', hw⟩ => by
      obtain ⟨s'', h'', hw'⟩ := stroke.window_eq h'
      exact ⟨s'', h'', hw'.trans hw⟩) hs ⟨s, h, rfl⟩

/-! ### Operations -/

lemma stroke_note {d : Desk σ} {h : Happening} (hh : h.isAside) : Stroke d (d.note h) :=
  .aside [h] rfl rfl (fun j hj => ⟨j, hj, rfl, rfl, rfl⟩) rfl (by simpa using hh)

lemma stroke_still (d : Desk σ) (store : σ) (clock : Nat) : Stroke d { d with store, clock } :=
  .aside [] rfl rfl (fun j hj => ⟨j, hj, rfl, rfl, rfl⟩) (List.append_nil _).symm (by simp)

lemma stroke_jobs {d : Desk σ} {jobs : List Job}
    (h : ∀ j ∈ jobs, ∃ j₀ ∈ d.jobs, j.Same j₀) : Stroke d { d with jobs } :=
  .aside [] rfl rfl h (List.append_nil _).symm (by simp)

lemma stroke_remove (d : Desk σ) (id : Nat) : Stroke d (d.remove id) :=
  stroke_jobs fun j hj => ⟨j, (List.mem_filter.mp hj).1, rfl, rfl, rfl⟩

lemma stroke_move (d : Desk σ) (id : Nat) (stage : JobStage) : Stroke d (d.move id stage) := by
  refine stroke_jobs fun j hj => ?_
  obtain ⟨j₀, hj₀, rfl⟩ := List.mem_map.mp hj
  exact ⟨j₀, hj₀, by split <;> exact ⟨rfl, rfl, rfl⟩⟩

lemma mem_of_job? {d : Desk σ} {id : Nat} {j : Job} (h : d.job? id = some j) : j ∈ d.jobs :=
  List.mem_of_find?_eq_some h

variable [ItemStore σ]

/-- The attempt is noted, and then what the store complains about. -/
lemma attempt_eq (d : Desk σ) (i : Nat) (s : Saver) (job : Option Nat) (state : State) :
    let text := State.codec.text state.clean
    let answer := ItemStore.setItem itemKey text d.store
    ∃ rs : List LogRecord, d.attempt i s job state = { d with
      store := answer.2
      savers := d.savers.set i { s with pending := none }
      trace := d.trace ++
        .wrote ⟨i, job, d.clock, itemKey, text, answer.1⟩ :: rs.map .logged } := by
  intro text answer
  cases h : answer.1 with
  | ok u => exact ⟨[], by simp [attempt, setSaver, note, answer, text, h]⟩
  | error f =>
    exact ⟨[⟨.warn, "Could not write local storage: " ++ f.text⟩],
      by simp [attempt, setSaver, note, answer, text, h]⟩

lemma attempt_setSaver (d : Desk σ) (i : Nat) (s s' : Saver) (job : Option Nat) (state : State) :
    (d.setSaver i s').attempt i s job state = d.attempt i s job state := by
  simp [attempt, setSaver, note]

lemma writePending_eq {d : Desk σ} {i : Nat} {s : Saver} {job : Option Nat}
    (hs : d.savers[i]? = some s) :
    d.writePending i job =
      match s.pending with
      | none => d
      | some state => d.attempt i s job state := by
  cases hp : s.pending <;> simp [writePending, hs, hp]

lemma isAside_logged {rs : List LogRecord} :
    ∀ h ∈ rs.map Happening.logged, h.isAside := by
  simp [Happening.isAside]

lemma strokes_attempt {d : Desk σ} {i : Nat} {s : Saver} {job : Option Nat} {state : State}
    {generation : Nat} (saver : d.savers[i]? = some s) (pending : s.pending = some state)
    (generation_le : s.generation ≤ generation)
    (hjob : ∀ id, job = some id →
      ∃ j ∈ d.jobs, j.id = id ∧ j.saver = i ∧ j.generation = s.generation) :
    Strokes d (d.attempt i { s with generation } job state) := by
  obtain ⟨rs, h⟩ := d.attempt_eq i { s with generation } job state
  let answer := ItemStore.setItem itemKey (State.codec.text state.clean) d.store
  let w : Write := ⟨i, job, d.clock, itemKey, State.codec.text state.clean, answer.1⟩
  have hw := Stroke.wrote (w := w) saver pending generation_le hjob rfl rfl answer.2
  refine .tail (.single hw) (.aside (rs.map .logged) ?_ ?_ ?_ ?_ isAside_logged) <;> rw [h]
  · exact fun j hj => ⟨j, hj, rfl, rfl, rfl⟩
  · simp [w, answer]

lemma strokes_wake {d : Desk σ} {j : Job} (hj : j ∈ d.jobs) : Strokes d (d.wake j) := by
  simp only [wake]
  split
  · rename_i hcur
    obtain ⟨s, hs, hg⟩ := Option.map_eq_some_iff.mp hcur
    rw [writePending_eq hs]
    cases hp : s.pending with
    | none =>
      refine .single (.finished hj fun s' hs' _ => ?_)
      rw [hs] at hs'
      cases hs'
      exact hp
    | some state =>
      have hjob : ∀ id, some j.id = some id →
          ∃ j' ∈ d.jobs, j'.id = id ∧ j'.saver = j.saver ∧ j'.generation = s.generation := by
        rintro id ⟨⟩
        exact ⟨j, hj, rfl, rfl, hg.symm⟩
      have ha : Strokes d (d.attempt j.saver s (some j.id) state) :=
        strokes_attempt hs hp (Nat.le_refl s.generation) hjob
      obtain ⟨rs, h⟩ := d.attempt_eq j.saver s (some j.id) state
      refine ha.tail (.finished (by rw [h]; exact hj) fun s' hs' _ => ?_)
      rw [h] at hs'
      simp only [getElem?_set_saver hs, if_true] at hs'
      cases hs'
      rfl
  · rename_i hcur
    exact .single (.finished hj fun s hs hg => absurd (by rw [hs, ← hg]; rfl) hcur)

lemma strokes_fallAsleep {d : Desk σ} {j : Job} (hj : j ∈ d.jobs) :
    Strokes d (d.fallAsleep j) := by
  simp only [fallAsleep]
  generalize (d.savers[j.saver]?.map Saver.window).getD 0 = window
  have hs : Strokes d (d.note (.slept j.id window)) := .single (stroke_note rfl)
  have hwake : Strokes d ((d.note (.slept j.id window)).wake j) := hs.trans (strokes_wake hj)
  split
  · exact hwake
  · split
    · exact (hs.tail (stroke_remove _ _)).tail (stroke_note rfl)
    · split
      · exact hwake
      · exact hs.tail (stroke_move _ _ _)

lemma strokes_poll (d : Desk σ) (id : Nat) : Strokes d (d.poll id) := by
  simp only [poll]
  split
  · exact .refl
  · rename_i j hj
    split
    · exact .refl
    · exact strokes_fallAsleep (mem_of_job? hj)
    · split
      · exact strokes_wake (mem_of_job? hj)
      · exact .refl

lemma flush_eq {d : Desk σ} {i : Nat} {s : Saver} (hs : d.savers[i]? = some s) :
    d.flush i = ((d.note (.flushed i d.clock)).setSaver i
      { s with generation := s.generation + 1 }).writePending i none := by
  simp [flush, hs, note, setSaver]

/-- A flush that finds nothing pending only moves on. -/
lemma flush_idle {d : Desk σ} {i : Nat} {s : Saver} (hs : d.savers[i]? = some s)
    (hp : s.pending = none) :
    d.flush i =
      (d.note (.flushed i d.clock)).setSaver i { s with generation := s.generation + 1 } := by
  rw [flush_eq hs, writePending_eq ((getElem?_set_saver hs _ i).trans (if_pos rfl))]
  simp only [hp]

lemma flush_pending {d : Desk σ} {i : Nat} {s : Saver} {state : State}
    (hs : d.savers[i]? = some s) (hp : s.pending = some state) :
    d.flush i = (d.note (.flushed i d.clock)).attempt i
      { s with generation := s.generation + 1 } none state := by
  rw [flush_eq hs, writePending_eq ((getElem?_set_saver hs _ i).trans (if_pos rfl))]
  simp only [hp, attempt_setSaver]

lemma strokes_flush (d : Desk σ) (i : Nat) : Strokes d (d.flush i) := by
  cases hs : d.savers[i]? with
  | none => simp only [flush, hs]; exact .refl
  | some s =>
    have hn : Strokes d (d.note (.flushed i d.clock)) := .single (stroke_note rfl)
    cases hp : s.pending with
    | none => rw [flush_idle hs hp]; exact hn.tail (.moved hs hp)
    | some state =>
      rw [flush_pending hs hp]
      exact hn.trans (strokes_attempt hs hp (Nat.le_succ _) (by simp))

lemma stroke_load (d : Desk σ) : Stroke d d.load.2 := by
  have got (hs : List Happening) (hq : ∀ h ∈ hs, h.isAside) (store : σ) :
      Stroke d { d with store, trace := d.trace ++ hs } :=
    .aside hs rfl rfl (fun j hj => ⟨j, hj, rfl, rfl, rfl⟩) rfl hq
  let answer := ItemStore.getItem itemKey d.store
  have plain := got [.got answer.1] (by simp [Happening.isAside]) answer.2
  have logged (r : LogRecord) :=
    got [.got answer.1, .logged r] (by simp [Happening.isAside]) answer.2
  simp only [load, note, List.append_assoc]
  split
  · exact logged _
  · exact plain
  · split
    · exact plain
    · exact logged _

/-! ### Runs -/

lemma strokes_act (d : Desk σ) (a : Act σ) : Strokes d (d.act a) := by
  cases a with
  | join window => exact .single (.joined d window)
  | save i state =>
    cases hs : d.savers[i]? with
    | none => simp only [act, save, hs]; exact .refl
    | some s => exact .single (.saved hs state)
  | release id =>
    simp only [act, release]
    split
    · split
      · exact .single (stroke_move _ _ _)
      · exact .refl
    · exact .refl
  | poll id => exact strokes_poll d id
  | drop id => exact .single (stroke_remove d id)
  | flush i => exact strokes_flush d i
  | load => exact .single (stroke_load d)
  | advance ms => exact .single (stroke_still d d.store _)
  | outside f => exact .single (stroke_still d _ d.clock)
  | log r => exact .single (stroke_note rfl)

theorem strokes_acts (d : Desk σ) (as : List (Act σ)) : Strokes d (d.acts as) := by
  induction as generalizing d with
  | nil => exact .refl
  | cons a as ih => exact (strokes_act d a).trans (ih _)

end Desk

def Event.act : Event → Act Memory
  | .save i state => .save i state
  | .release id => .release id
  | .poll id => .poll id
  | .drop id => .drop id
  | .flush i => .flush i
  | .load => .load
  | .advance ms => .advance ms
  | .outside c => .outside fun m => c.apply m

/-- The runs on a store in memory are runs of such operations. -/
theorem Desk.run_eq_acts (d : Desk Memory) (es : List Event) :
    d.run es = d.acts (es.map Event.act) := by
  induction es generalizing d with
  | nil => rfl
  | cons e es ih =>
    have he : d.step e = d.act e.act := by cases e <;> rfl
    rw [run_cons, ih, he]
    rfl

end Tipping.Payments
