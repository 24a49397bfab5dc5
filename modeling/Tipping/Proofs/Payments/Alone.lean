import Mathlib.Data.List.Basic
import Mathlib.Data.List.Find
import Tipping.Proofs.Payments.Debounce

/-!
What a desk is to one saver.

A run is projected to one saver: what is done to that saver, to the jobs of its own saves, and to
the clock. A desk of its own that the saver would have alone goes through the projected run in
step with the real one. That desk has a store that keeps nothing: no decision depends on what is
stored or on whether a write succeeds.
-/

namespace Tipping.Payments

/-- What an attempt shows to others: when it was made, and what it was to write where. -/
def Write.shown (w : Write) : Nat × String × String := (w.time, w.key, w.text)

/-- A store that takes every text and keeps none. -/
inductive Sink where
  | sink

instance : ItemStore Sink where
  getItem _ s := (.ok none, s)
  setItem _ _ s := (.ok (), s)

/-- What is done to one saver, to a job of its own, or to the clock. Jobs are numbered in the order
of the saver's saves. -/
inductive Deed where
  | save (state : State)
  | flush
  | release (job : Nat)
  | poll (job : Nat)
  | drop (job : Nat)
  | advance (ms : Nat)
  deriving DecidableEq, Repr

/-- The deed where there is no other saver. -/
def Deed.act : Deed → Act Sink
  | save state => .save 0 state
  | flush => .flush 0
  | release id => .release id
  | poll id => .poll id
  | drop id => .drop id
  | advance ms => .advance ms

/-- The jobs of a saver's saves, in their order. -/
def ownJobs (i : Nat) (tr : List Happening) : List Nat := (saves i tr).map Prod.fst

lemma ownJobs_append (i : Nat) (tr tr' : List Happening) :
    ownJobs i (tr ++ tr') = ownJobs i tr ++ ownJobs i tr' := by
  simp [ownJobs]

lemma ownJobs_aside {i : Nat} {hs : List Happening} (hq : ∀ h ∈ hs, h.save? i = none) :
    ownJobs i hs = [] := by
  rw [ownJobs, saves, List.filterMap_eq_nil_iff.mpr hq, List.map_nil]

lemma attempts_quiet {i : Nat} {hs : List Happening} (hq : ∀ h ∈ hs, h.attempt? i = none) :
    attempts i hs = [] :=
  List.filterMap_eq_nil_iff.mpr hq

lemma attempts_wrote (i : Nat) (w : Write) (rs : List LogRecord) :
    attempts i (.wrote w :: rs.map .logged) = if w.saver = i then [w] else [] := by
  rw [attempts_cons, attempts_quiet (by simp [Happening.attempt?]), List.append_nil]
  by_cases h : w.saver = i <;> simp [Happening.attempt?, h]

lemma ownJobs_wrote (i : Nat) (w : Write) (rs : List LogRecord) :
    ownJobs i (.wrote w :: rs.map .logged) = [] :=
  ownJobs_aside (by simp [Happening.save?])

lemma save?_aside {i : Nat} {h : Happening} (hh : h.isAside) : h.save? i = none := by
  cases h <;> first | rfl | cases hh

namespace Desk

variable {σ : Type}

/-- The number of a saver's own job among the jobs of its saves. -/
def own? (d : Desk σ) (i id : Nat) : Option Nat :=
  let ids := ownJobs i d.trace
  if id ∈ ids then some (ids.idxOf id) else none

/-- What an act is to one saver. -/
def seen? (d : Desk σ) (i : Nat) : Act σ → Option Deed
  | .save k state => if k = i ∧ k < d.savers.length then some (.save state) else none
  | .flush k => if k = i ∧ k < d.savers.length then some .flush else none
  | .release id => (d.own? i id).map .release
  | .poll id => (d.own? i id).map .poll
  | .drop id => (d.own? i id).map .drop
  | .advance ms => some (.advance ms)
  | .join _ | .load | .outside _ | .log _ => none

variable [ItemStore σ]

/-- A run as one saver sees it. -/
def view (d : Desk σ) (i : Nat) : List (Act σ) → List Deed
  | [] => []
  | a :: as => (d.seen? i a).toList ++ (d.act a).view i as

lemma view_concat (d : Desk σ) (i : Nat) (as : List (Act σ)) (a : Act σ) :
    d.view i (as ++ [a]) = d.view i as ++ ((d.acts as).seen? i a).toList := by
  induction as generalizing d with
  | nil => simp [view, acts]
  | cons b as ih => rw [List.cons_append, view, ih, view, List.append_assoc]; rfl

omit [ItemStore σ] in
/-- The jobs of a saver that are not over. -/
def mine (d : Desk σ) (i : Nat) : List Job := d.jobs.filter (·.saver = i)

/-! ### What concerns others -/

/-- From one desk to the other nothing has happened that concerns the saver. -/
structure Apart (i : Nat) (d d' : Desk σ) : Prop where
  timer : d'.timer = d.timer
  clock : d'.clock = d.clock
  saver : d'.savers[i]? = d.savers[i]?
  mine : d'.mine i = d.mine i
  jobs : ∀ j ∈ d'.jobs, (∃ j₀ ∈ d.jobs, j.Same j₀) ∨ (d.made ≤ j.id ∧ j.saver ≠ i)
  made : d.made ≤ d'.made
  saved : ownJobs i d'.trace = ownJobs i d.trace
  attempts : attempts i d'.trace = attempts i d.trace

section Frames

omit [ItemStore σ]

lemma Apart.refl (i : Nat) (d : Desk σ) : Apart i d d :=
  ⟨rfl, rfl, rfl, rfl, fun j hj => .inl ⟨j, hj, rfl, rfl, rfl⟩, Nat.le_refl _, rfl, rfl⟩

lemma Apart.trans {i : Nat} {d d' d'' : Desk σ} (h : Apart i d d') (h' : Apart i d' d'') :
    Apart i d d'' := by
  refine ⟨h'.timer.trans h.timer, h'.clock.trans h.clock, h'.saver.trans h.saver,
    h'.mine.trans h.mine, fun j hj => ?_, Nat.le_trans h.made h'.made, h'.saved.trans h.saved,
    h'.attempts.trans h.attempts⟩
  rcases h'.jobs j hj with ⟨j₁, hj₁, hid₁, hsaver₁, hgen₁⟩ | ⟨hid, hi⟩
  · rcases h.jobs j₁ hj₁ with ⟨j₀, hj₀, hid₀, hsaver₀, hgen₀⟩ | ⟨hid, hi⟩
    · exact .inl ⟨j₀, hj₀, hid₁.trans hid₀, hsaver₁.trans hsaver₀, hgen₁.trans hgen₀⟩
    · exact .inr ⟨hid₁ ▸ hid, hsaver₁ ▸ hi⟩
  · exact .inr ⟨Nat.le_trans h.made hid, hi⟩

/-- Only the store and the trace differ, and the trace tells nothing of the saver. -/
lemma apart_aside {i : Nat} (d : Desk σ) (store : σ) {hs : List Happening}
    (hsave : ∀ h ∈ hs, h.save? i = none) (hattempt : ∀ h ∈ hs, h.attempt? i = none) :
    Apart i d { d with store, trace := d.trace ++ hs } := by
  refine { Apart.refl i d with saved := ?_, attempts := ?_ }
  · rw [ownJobs_append, ownJobs_aside hsave, List.append_nil]
  · rw [attempts_append, attempts_quiet hattempt, List.append_nil]

lemma apart_note {i : Nat} (d : Desk σ) {h : Happening} (hsave : h.save? i = none)
    (hattempt : h.attempt? i = none) : Apart i d (d.note h) :=
  apart_aside d d.store (by simpa using hsave) (by simpa using hattempt)

lemma apart_remove {i id : Nat} {d : Desk σ} (hid : ∀ j ∈ d.jobs, j.id = id → j.saver ≠ i) :
    Apart i d (d.remove id) := by
  refine { Apart.refl i d with
    mine := ?_, jobs := fun j hj => .inl ⟨j, (List.mem_filter.mp hj).1, rfl, rfl, rfl⟩ }
  rw [mine, remove, List.filter_filter, mine]
  refine List.filter_congr fun j hj => ?_
  by_cases hi : j.saver = i
  · simpa [hi] using fun he => hid j hj he hi
  · simp [hi]

lemma apart_move {i id : Nat} {d : Desk σ} (hid : ∀ j ∈ d.jobs, j.id = id → j.saver ≠ i)
    (stage : JobStage) : Apart i d (d.move id stage) := by
  refine { Apart.refl i d with mine := ?_, jobs := fun j hj => ?_ }
  · have hsaver (j : Job) : (if j.id = id then { j with stage } else j).saver = j.saver := by
      split <;> rfl
    simp only [mine, move, List.filter_map, Function.comp_def, hsaver]
    refine (List.map_congr_left fun j hj => ?_).trans (List.map_id _)
    obtain ⟨hj, hi⟩ := List.mem_filter.mp hj
    exact if_neg fun he => hid j hj he (of_decide_eq_true hi)
  · obtain ⟨j₀, hj₀, rfl⟩ := List.mem_map.mp hj
    exact .inl ⟨j₀, hj₀, by split <;> exact ⟨rfl, rfl, rfl⟩⟩

lemma apart_setSaver {i k : Nat} (hk : k ≠ i) (d : Desk σ) (s : Saver) :
    Apart i d (d.setSaver k s) :=
  { Apart.refl i d with saver := List.getElem?_set_ne hk }

end Frames

variable {i k id : Nat} {d : Desk σ}

lemma apart_attempt (hk : k ≠ i) (d : Desk σ) (s : Saver) (job : Option Nat) (state : State) :
    Apart i d (d.attempt k s job state) := by
  obtain ⟨rs, h⟩ := d.attempt_eq k s job state
  rw [h]
  refine (apart_setSaver hk d { s with pending := none }).trans (apart_aside _ _ ?_ ?_)
  · simp [Happening.save?]
  · simp [Happening.attempt?, hk]

lemma apart_writePending (hk : k ≠ i) (d : Desk σ) (job : Option Nat) :
    Apart i d (d.writePending k job) := by
  simp only [writePending]
  split
  · exact .refl i d
  · split
    · exact .refl i d
    · exact apart_attempt hk d ..

lemma apart_wake {j : Job} (hj : j.saver ≠ i)
    (hid : ∀ j' ∈ d.jobs, j'.id = j.id → j'.saver ≠ i) : Apart i d (d.wake j) := by
  have hend {d' : Desk σ} (h : Apart i d d') :
      Apart i d ((d'.remove j.id).note (.finished j.id)) := by
    refine (h.trans (apart_remove fun j' hj' he => ?_)).trans (apart_note _ rfl rfl)
    rcases h.jobs j' hj' with ⟨j₀, hj₀, hid₀, hsaver₀, -⟩ | ⟨-, hi⟩
    · exact hsaver₀ ▸ hid j₀ hj₀ (hid₀.symm.trans he)
    · exact hi
  simp only [wake]
  split
  · exact hend (apart_writePending hj d _)
  · exact hend (.refl i d)

lemma apart_fallAsleep {j : Job} (hj : j.saver ≠ i)
    (hid : ∀ j' ∈ d.jobs, j'.id = j.id → j'.saver ≠ i) : Apart i d (d.fallAsleep j) := by
  simp only [fallAsleep]
  generalize (d.savers[j.saver]?.map Saver.window).getD 0 = window
  have hs : Apart i d (d.note (.slept j.id window)) := apart_note d rfl rfl
  have hwake := hs.trans (apart_wake (d := d.note (.slept j.id window)) hj hid)
  split
  · exact hwake
  · split
    · exact (hs.trans (apart_remove hid)).trans (apart_note _ rfl rfl)
    · split
      · exact hwake
      · exact hs.trans (apart_move (d := d.note (.slept j.id window)) hid _)

lemma apart_poll (hid : ∀ j ∈ d.jobs, j.id = id → j.saver ≠ i) : Apart i d (d.poll id) := by
  simp only [poll]
  split
  · exact .refl i d
  · rename_i j hj
    have he : j.id = id := by simpa using List.find?_some hj
    have hsaver : j.saver ≠ i := hid j (mem_of_job? hj) he
    have hid' : ∀ j' ∈ d.jobs, j'.id = j.id → j'.saver ≠ i :=
      fun j' hj' h => hid j' hj' (h.trans he)
    split
    · exact .refl i d
    · exact apart_fallAsleep hsaver hid'
    · split
      · exact apart_wake hsaver hid'
      · exact .refl i d

lemma apart_flush (hk : k ≠ i) (d : Desk σ) : Apart i d (d.flush k) := by
  simp only [flush]
  split
  · exact .refl i d
  · exact ((apart_setSaver hk d _).trans (apart_note _ rfl rfl)).trans (apart_writePending hk _ _)

lemma apart_load (d : Desk σ) : Apart i d d.load.2 := by
  have got (hs : List Happening) (hq : ∀ h ∈ hs, h.isAside) (store : σ) :
      Apart i d { d with store, trace := d.trace ++ hs } :=
    apart_aside d store (fun h hh => save?_aside (hq h hh)) fun h hh => attempt?_aside (hq h hh)
  simp only [load, note, List.append_assoc]
  split
  · exact got _ (by simp [Happening.isAside]) _
  · exact got _ (by simp [Happening.isAside]) _
  · split
    · exact got _ (by simp [Happening.isAside]) _
    · exact got _ (by simp [Happening.isAside]) _

omit [ItemStore σ] in
lemma apart_save (hk : k ≠ i) (d : Desk σ) (state : State) : Apart i d (d.save k state) := by
  cases hs : d.savers[k]? with
  | none => simpa only [save, hs] using Apart.refl i d
  | some s =>
    rw [save_eq hs]
    refine ⟨rfl, rfl, List.getElem?_set_ne hk, ?_, fun j hj => ?_, Nat.le_succ _, ?_, ?_⟩
    · simp [mine, hk]
    · rcases List.mem_append.mp hj with hj | hj
      · exact .inl ⟨j, hj, rfl, rfl, rfl⟩
      · cases List.mem_singleton.mp hj
        exact .inr ⟨Nat.le_refl _, hk⟩
    · simp [ownJobs, Happening.save?, hk]
    · simp [Happening.attempt?]

/-! ### The desk of one saver -/

/-- A job under its number among the jobs of its saver. -/
def renumber (ids : List Nat) (j : Job) : Job := ⟨ids.idxOf j.id, 0, j.generation, j.stage⟩

/-- The second desk is what the first is to one saver, whose saves made these jobs. -/
structure Mirrors (i window : Nat) (ids : List Nat) (d : Desk σ) (u : Desk Sink) : Prop where
  timer : u.timer = d.timer
  clock : u.clock = d.clock
  savers : u.savers = [d.savers[i]?.getD ⟨window, 0, none⟩]
  jobs : u.jobs = (d.mine i).map (renumber ids)
  made : u.made = ids.length
  saved : ownJobs i d.trace = ids
  attempts : (attempts 0 u.trace).map Write.shown = (attempts i d.trace).map Write.shown
  owner : ∀ j ∈ d.jobs, j.id ∈ ids ↔ j.saver = i
  below : ∀ id ∈ ids, id < d.made

namespace Mirrors

variable {window : Nat} {ids : List Nat} {u : Desk Sink}

omit [ItemStore σ]

lemma apart {d' : Desk σ} (m : Mirrors i window ids d u) (h : Apart i d d') :
    Mirrors i window ids d' u where
  timer := m.timer.trans h.timer.symm
  clock := m.clock.trans h.clock.symm
  savers := h.saver.symm ▸ m.savers
  jobs := h.mine.symm ▸ m.jobs
  made := m.made
  saved := h.saved.trans m.saved
  attempts := h.attempts.symm ▸ m.attempts
  owner j hj := by
    rcases h.jobs j hj with ⟨j₀, hj₀, hid, hsaver, -⟩ | ⟨hid, hi⟩
    · rw [hid, hsaver]
      exact m.owner j₀ hj₀
    · exact iff_of_false (fun hm => absurd (m.below _ hm) (Nat.not_lt.mpr hid)) hi
  below id hid := Nat.lt_of_lt_of_le (m.below id hid) h.made

/-- A job of others has none of the numbers. -/
lemma foreign (m : Mirrors i window ids d u) (hid : id ∉ ids) :
    ∀ j ∈ d.jobs, j.id = id → j.saver ≠ i :=
  fun j hj he hi => hid (he ▸ (m.owner j hj).mpr hi)

lemma number_inj (m : Mirrors i window ids d u) {j : Job} (hj : j ∈ d.mine i) :
    ids.idxOf j.id = ids.idxOf id ↔ j.id = id := by
  obtain ⟨hj, hi⟩ := List.mem_filter.mp hj
  exact List.idxOf_inj ((m.owner j hj).mpr (of_decide_eq_true hi))

lemma job? (m : Mirrors i window ids d u) (hid : id ∈ ids) :
    u.job? (ids.idxOf id) = (d.job? id).map (renumber ids) := by
  have hnumber : (d.mine i).find? (fun j => (renumber ids j).id = ids.idxOf id) =
      (d.mine i).find? (fun j => j.id = id) :=
    List.find?_congr fun j hj => decide_eq_decide.mpr (m.number_inj hj)
  have hmine : (d.mine i).find? (fun j => j.id = id) = d.job? id := by
    rw [mine, List.find?_filter, Desk.job?]
    refine List.find?_congr fun j hj => ?_
    by_cases he : j.id = id
    · simp [he, (m.owner j hj).mp (he ▸ hid)]
    · simp [he]
  rw [Desk.job?, m.jobs, List.find?_map, ← hmine]
  exact congrArg _ hnumber

lemma remove (m : Mirrors i window ids d u) (id : Nat) :
    Mirrors i window ids (d.remove id) (u.remove (ids.idxOf id)) := by
  refine { m with jobs := ?_, owner := fun j hj => m.owner j (List.mem_filter.mp hj).1 }
  calc (u.remove (ids.idxOf id)).jobs
      = ((d.mine i).map (renumber ids)).filter (·.id ≠ ids.idxOf id) := by rw [← m.jobs]; rfl
    _ = ((d.mine i).filter (·.id ≠ id)).map (renumber ids) := by
      rw [List.filter_map]
      refine congrArg _ (List.filter_congr fun j hj => ?_)
      exact decide_eq_decide.mpr (not_congr (m.number_inj hj))
    _ = ((d.remove id).mine i).map (renumber ids) := by rw [mine, List.filter_comm]; rfl

lemma move (m : Mirrors i window ids d u) (id : Nat) (stage : JobStage) :
    Mirrors i window ids (d.move id stage) (u.move (ids.idxOf id) stage) := by
  have hsaver (j : Job) : (if j.id = id then { j with stage } else j).saver = j.saver := by
    split <;> rfl
  refine { m with jobs := ?_, owner := fun j hj => ?_ }
  · have hmine : (d.move id stage).mine i =
        (d.mine i).map fun j => if j.id = id then { j with stage } else j := by
      simp only [mine, Desk.move, List.filter_map, Function.comp_def, hsaver]
    rw [Desk.move, m.jobs, hmine, List.map_map, List.map_map]
    refine List.map_congr_left fun j hj => ?_
    by_cases he : j.id = id
    · simp [renumber, he]
    · simp [renumber, he, mt (m.number_inj hj).mp he]
  · obtain ⟨j₀, hj₀, rfl⟩ := List.mem_map.mp hj
    rw [hsaver]
    split
    · exact m.owner j₀ hj₀
    · exact m.owner j₀ hj₀

lemma note (m : Mirrors i window ids d u) {h h' : Happening} (hsave : h.save? i = none)
    (hattempt : h.attempt? i = none) (hattempt' : h'.attempt? 0 = none) :
    Mirrors i window ids (d.note h) (u.note h') := by
  refine { m with saved := ?_, attempts := ?_ }
  · have hnone : ownJobs i [h] = [] := ownJobs_aside (by simpa using hsave)
    rw [Desk.note, ownJobs_append, hnone, List.append_nil, m.saved]
  · simpa [Desk.note, hattempt, hattempt'] using m.attempts

lemma saver (m : Mirrors i window ids d u) {s : Saver} (hs : d.savers[i]? = some s) :
    u.savers = [s] := by
  rw [m.savers, hs]
  rfl

variable [ItemStore σ] {s : Saver}

lemma attempt (m : Mirrors i window ids d u) (hs : d.savers[i]? = some s) (s' : Saver)
    (job job' : Option Nat) (state : State) :
    Mirrors i window ids (d.attempt i s' job state) (u.attempt 0 s' job' state) := by
  obtain ⟨rs, h⟩ := d.attempt_eq i s' job state
  obtain ⟨rs', h'⟩ := u.attempt_eq 0 s' job' state
  rw [h, h']
  refine { m with savers := ?_, saved := ?_, attempts := ?_ }
  · simp [m.saver hs, getElem?_set_saver hs]
  · rw [ownJobs_append, ownJobs_wrote, List.append_nil, m.saved]
  · simp only [attempts_append, attempts_wrote, if_true, List.map_append, m.attempts, m.clock,
      Write.shown, List.map_cons, List.map_nil]

lemma writePending (m : Mirrors i window ids d u) (hs : d.savers[i]? = some s)
    (job job' : Option Nat) :
    Mirrors i window ids (d.writePending i job) (u.writePending 0 job') := by
  have hs' : u.savers[0]? = some s := by simp [m.saver hs]
  rw [writePending_eq hs, writePending_eq hs']
  cases s.pending with
  | none => exact m
  | some state => exact m.attempt hs s job job' state

omit [ItemStore σ] in
lemma finish (m : Mirrors i window ids d u) (id : Nat) :
    Mirrors i window ids ((d.remove id).note (.finished id))
      ((u.remove (ids.idxOf id)).note (.finished (ids.idxOf id))) :=
  (m.remove id).note rfl rfl rfl

lemma wake (m : Mirrors i window ids d u) {j : Job} (hj : j.saver = i)
    (hs : d.savers[i]? = some s) :
    Mirrors i window ids (d.wake j) (u.wake (renumber ids j)) := by
  have hs' : u.savers[0]? = some s := by simp [m.saver hs]
  simp only [Desk.wake, renumber, hj, hs, hs', Option.map_some, Option.some.injEq]
  split
  · exact (m.writePending hs _ _).finish j.id
  · exact m.finish j.id

lemma fallAsleep (m : Mirrors i window ids d u) {j : Job} (hj : j.saver = i)
    (hs : d.savers[i]? = some s) :
    Mirrors i window ids (d.fallAsleep j) (u.fallAsleep (renumber ids j)) := by
  have hs' : u.savers[(renumber ids j).saver]? = some s := by simp [renumber, m.saver hs]
  have hm : Mirrors i window ids (d.note (.slept j.id s.window))
      (u.note (.slept (renumber ids j).id s.window)) := m.note rfl rfl rfl
  simp only [Desk.fallAsleep, hj, hs, hs', Option.map_some, Option.getD_some, hm.timer, hm.clock]
  split
  · exact hm.wake hj hs
  · split
    · exact (hm.remove j.id).note rfl rfl rfl
    · split
      · exact hm.wake hj hs
      · exact hm.move j.id _

lemma poll (m : Mirrors i window ids d u) (h : Kept d) (hid : id ∈ ids) :
    Mirrors i window ids (d.poll id) (u.poll (ids.idxOf id)) := by
  have hjob := m.job? hid
  cases hj : d.job? id with
  | none => simpa only [Desk.poll, hjob, hj, Option.map_none] using m
  | some j =>
    have he : j.id = id := by simpa using List.find?_some hj
    have hi : j.saver = i := (m.owner j (mem_of_job? hj)).mp (he ▸ hid)
    obtain ⟨s, hs, -⟩ := h.outdated j (mem_of_job? hj)
    rw [hi] at hs
    simp only [Desk.poll, hjob, hj, Option.map_some, m.clock]
    rw [show (renumber ids j).stage = j.stage from rfl]
    split
    · exact m
    · exact m.fallAsleep hi hs
    · split
      · exact m.wake hi hs
      · exact m

omit [ItemStore σ] in
lemma release (m : Mirrors i window ids d u) (hid : id ∈ ids) :
    Mirrors i window ids (d.release id) (u.release (ids.idxOf id)) := by
  have hjob := m.job? hid
  cases hj : d.job? id with
  | none => simpa only [Desk.release, hjob, hj, Option.map_none] using m
  | some j =>
    simp only [Desk.release, hjob, hj, Option.map_some]
    rw [show (renumber ids j).stage = j.stage from rfl]
    split
    · exact m.move id .due
    · exact m

lemma flush (m : Mirrors i window ids d u) (hs : d.savers[i]? = some s) :
    Mirrors i window ids (d.flush i) (u.flush 0) := by
  have hs' : u.savers[0]? = some s := by simp [m.saver hs]
  have hm : Mirrors i window ids (d.note (.flushed i d.clock)) (u.note (.flushed 0 u.clock)) :=
    m.note rfl rfl rfl
  cases hp : s.pending with
  | none =>
    rw [flush_idle hs hp, flush_idle hs' hp]
    exact { hm with savers := by simp [setSaver, Desk.note, m.saver hs, getElem?_set_saver hs] }
  | some state =>
    rw [flush_pending hs hp, flush_pending hs' hp]
    exact hm.attempt hs _ none none state

omit [ItemStore σ] in
lemma save (m : Mirrors i window ids d u) (h : Kept d) (hs : d.savers[i]? = some s)
    (state : State) :
    Mirrors i window (ids ++ [d.made]) (d.save i state) (u.save 0 state) := by
  have hs' : u.savers[0]? = some s := by simp [m.saver hs]
  have hfresh : d.made ∉ ids := fun hm => Nat.lt_irrefl _ (m.below _ hm)
  rw [save_eq hs, save_eq hs']
  refine ⟨m.timer, m.clock, ?_, ?_, ?_, ?_, ?_, fun j hj => ?_, fun id hid => ?_⟩
  · simp [m.saver hs, getElem?_set_saver hs]
  · have hold : (d.mine i).map (renumber (ids ++ [d.made])) = (d.mine i).map (renumber ids) := by
      refine List.map_congr_left fun j hj => ?_
      obtain ⟨hj, hi⟩ := List.mem_filter.mp hj
      have hid : j.id ∈ ids := (m.owner j hj).mpr (of_decide_eq_true hi)
      rw [renumber, renumber, List.idxOf_append_of_mem hid]
    have hnew : renumber (ids ++ [d.made]) ⟨d.made, i, s.generation + 1, .held⟩ =
        ⟨u.made, 0, s.generation + 1, .held⟩ := by
      simp [renumber, List.idxOf_append_of_notMem hfresh, m.made]
    calc u.jobs ++ [⟨u.made, 0, s.generation + 1, .held⟩]
        = (d.mine i ++ [Job.mk d.made i (s.generation + 1) .held]).map
            (renumber (ids ++ [d.made])) := by
          rw [List.map_append, hold, List.map_singleton, hnew, m.jobs]
      _ = _ := by simp [mine]
  · simp [m.made]
  · rw [ownJobs_append, m.saved]
    simp [ownJobs, Happening.save?]
  · simpa [Happening.attempt?] using m.attempts
  · rcases List.mem_append.mp hj with hj | hj
    · have hne : j.id ≠ d.made := Nat.ne_of_lt (h.jobs j hj)
      simp [m.owner j hj, hne]
    · cases List.mem_singleton.mp hj
      simp
  · rcases List.mem_append.mp hid with hid | hid
    · exact Nat.lt_succ_of_lt (m.below id hid)
    · cases List.mem_singleton.mp hid
      exact Nat.lt_succ_self _

end Mirrors

/-- An act that a saver sees nothing of is none of its business. -/
lemma apart_of_unseen {window : Nat} {ids : List Nat} {u : Desk Sink}
    (m : Mirrors i window ids d u) {a : Act σ} (ha : d.seen? i a = none)
    (hjoin : ∀ w, a = .join w → i ≠ d.savers.length) : Apart i d (d.act a) := by
  have hown {id : Nat} (h : d.own? i id = none) : ∀ j ∈ d.jobs, j.id = id → j.saver ≠ i := by
    refine m.foreign fun hid => ?_
    rw [own?, m.saved, if_pos hid] at h
    cases h
  cases a with
  | join w =>
    have hi := hjoin w rfl
    refine { Apart.refl i d with saver := ?_ }
    rw [act, addSaver, List.getElem?_append]
    split
    · rfl
    · have hk : i - d.savers.length ≠ 0 := by omega
      rw [List.getElem?_eq_none (by simp; omega), List.getElem?_eq_none (by omega)]
  | save k state =>
    by_cases hk : k = i
    · have hlen : d.savers.length ≤ k := by
        by_contra hlt
        simp [seen?, hk, Nat.lt_of_not_le (hk ▸ hlt)] at ha
      simpa only [act, Desk.save, List.getElem?_eq_none hlen] using Apart.refl i d
    · exact apart_save hk d state
  | flush k =>
    by_cases hk : k = i
    · have hlen : d.savers.length ≤ k := by
        by_contra hlt
        simp [seen?, hk, Nat.lt_of_not_le (hk ▸ hlt)] at ha
      simpa only [act, Desk.flush, List.getElem?_eq_none hlen] using Apart.refl i d
    · exact apart_flush hk d
  | release id =>
    have hid := hown (Option.map_eq_none_iff.mp ha)
    simp only [act, Desk.release]
    split
    · rename_i j hj
      split
      · exact apart_move hid _
      · exact .refl i d
    · exact .refl i d
  | poll id => exact apart_poll (hown (Option.map_eq_none_iff.mp ha))
  | drop id => exact apart_remove (hown (Option.map_eq_none_iff.mp ha))
  | load => exact apart_load d
  | advance ms => cases ha
  | outside f => exact { Apart.refl i d with }
  | log r => exact apart_note d rfl rfl

/-- Whatever is done to the desk, the saver's own desk keeps up by doing what the saver sees. -/
lemma Mirrors.act {window : Nat} {ids : List Nat} {u : Desk Sink} (m : Mirrors i window ids d u)
    (h : Kept d) {a : Act σ} (hw : ∀ s, (d.act a).savers[i]? = some s → s.window = window) :
    ∃ ids', Mirrors i window ids' (d.act a) (u.acts ((d.seen? i a).toList.map Deed.act)) := by
  have hown {id n : Nat} (hn : d.own? i id = some n) : id ∈ ids ∧ ids.idxOf id = n := by
    simp only [own?, m.saved] at hn
    split at hn
    · exact ⟨‹_›, Option.some.inj hn⟩
    · cases hn
  cases hseen : d.seen? i a with
  | none =>
    by_cases hjoin : ∃ w, a = .join w ∧ i = d.savers.length
    · obtain ⟨w, rfl, rfl⟩ := hjoin
      have hnew : (d.addSaver w).savers[d.savers.length]? = some ⟨w, 0, none⟩ := by
        simp [addSaver]
      have hw : w = window := hw _ hnew
      exact ⟨ids, { m with savers := by simp [acts, Desk.act, addSaver, m.savers, hw] }⟩
    · refine ⟨ids, m.apart (apart_of_unseen m hseen fun w hw hi => hjoin ⟨w, hw, hi⟩)⟩
  | some b =>
    cases a with
    | join | load | outside | log => cases hseen
    | save k state =>
      simp only [seen?] at hseen
      split at hseen
      · rename_i hk
        cases hseen
        obtain ⟨rfl, hk⟩ := hk
        exact ⟨_, m.save h (List.getElem?_eq_getElem hk) state⟩
      · cases hseen
    | flush k =>
      simp only [seen?] at hseen
      split at hseen
      · rename_i hk
        cases hseen
        obtain ⟨rfl, hk⟩ := hk
        exact ⟨_, m.flush (List.getElem?_eq_getElem hk)⟩
      · cases hseen
    | release id =>
      obtain ⟨n, hn, rfl⟩ := Option.map_eq_some_iff.mp hseen
      obtain ⟨hid, rfl⟩ := hown hn
      exact ⟨_, m.release hid⟩
    | poll id =>
      obtain ⟨n, hn, rfl⟩ := Option.map_eq_some_iff.mp hseen
      obtain ⟨hid, rfl⟩ := hown hn
      exact ⟨_, m.poll h hid⟩
    | drop id =>
      obtain ⟨n, hn, rfl⟩ := Option.map_eq_some_iff.mp hseen
      obtain ⟨-, rfl⟩ := hown hn
      exact ⟨_, m.remove id⟩
    | advance ms =>
      cases hseen
      exact ⟨ids, { m with clock := congrArg (· + ms) m.clock }⟩

lemma mirrors_acts (store : σ) (timer : Timer) (windows : List Nat) (as : List (Act σ))
    {i window : Nat}
    (hw : ∀ s, ((new store timer windows).acts as).savers[i]? = some s → s.window = window) :
    ∃ ids, Mirrors i window ids ((new store timer windows).acts as)
      ((new .sink timer [window]).acts (((new store timer windows).view i as).map Deed.act)) := by
  induction as using List.reverseRecOn with
  | nil =>
    refine ⟨[], ⟨rfl, rfl, ?_, rfl, rfl, rfl, rfl, by simp [new, acts], by simp⟩⟩
    cases hi : windows[i]? with
    | none => simp [new, acts, view, hi]
    | some w =>
      have hw : w = window := hw ⟨w, 0, none⟩ (by simp [new, acts, hi])
      simp [new, acts, view, hi, hw]
  | append_singleton as a ih =>
    have hact : (new store timer windows).acts (as ++ [a]) =
        ((new store timer windows).acts as).act a := acts_append _ as [a]
    rw [hact] at hw ⊢
    obtain ⟨ids, m⟩ := ih fun s hs => by
      obtain ⟨s', hs', hwin⟩ := strokes_window (strokes_act _ a) hs
      exact hwin ▸ hw s' hs'
    rw [view_concat, List.map_append, acts_append]
    exact m.act (kept_acts store timer windows as) hw

end Desk

end Tipping.Payments
