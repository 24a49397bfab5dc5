import Mathlib.Data.List.Induction
import Tipping.Proofs.Payments.Stroke

/-!
No save is lost.

What a saver has pending is its last save, unless that was handed over since; the trace tells
which. The invariant ties the two together, and adds that the job of that save is not over and
has its saver's generation, if it still runs: so it is the one that will write.
-/

namespace Tipping.Payments

/-! ### Traces -/

/-- The job and the state of a saver's save. -/
def Happening.save? (i : Nat) : Happening → Option (Nat × State)
  | .saved k job _ state => if k = i then some (job, state) else none
  | _ => none

def Happening.attempt? (i : Nat) : Happening → Option Write
  | .wrote w => if w.saver = i then some w else none
  | _ => none

def saves (i : Nat) (hs : List Happening) : List (Nat × State) := hs.filterMap (·.save? i)

def attempts (i : Nat) (hs : List Happening) : List Write := hs.filterMap (·.attempt? i)

/-- The last save of a saver, and what has happened since. -/
def LastSave (i job : Nat) (state : State) (tr since : List Happening) : Prop :=
  saves i since = [] ∧ ∃ before time, tr = before ++ .saved i job time state :: since

def owe (i : Nat) (o : Option (Nat × State)) (h : Happening) : Option (Nat × State) :=
  if h.attempt? i = none then (h.save? i).or o else none

/-- The last save of a saver, if it was not handed over since. -/
def owed (i : Nat) (tr : List Happening) : Option (Nat × State) := tr.foldl (owe i) none

@[simp] lemma saves_append (i : Nat) (hs hs' : List Happening) :
    saves i (hs ++ hs') = saves i hs ++ saves i hs' := List.filterMap_append

@[simp] lemma attempts_append (i : Nat) (hs hs' : List Happening) :
    attempts i (hs ++ hs') = attempts i hs ++ attempts i hs' := List.filterMap_append

@[simp] lemma saves_nil (i : Nat) : saves i [] = [] := rfl

@[simp] lemma attempts_nil (i : Nat) : attempts i [] = [] := rfl

@[simp] lemma saves_cons (i : Nat) (h : Happening) (hs : List Happening) :
    saves i (h :: hs) = (h.save? i).toList ++ saves i hs := by
  cases hp : h.save? i <;> simp [saves, hp]

@[simp] lemma attempts_cons (i : Nat) (h : Happening) (hs : List Happening) :
    attempts i (h :: hs) = (h.attempt? i).toList ++ attempts i hs := by
  cases ha : h.attempt? i <;> simp [attempts, ha]

lemma attempt?_eq_some {i : Nat} {h : Happening} {w : Write} (hw : h.attempt? i = some w) :
    h = .wrote w ∧ w.saver = i := by
  cases h with
  | wrote w' =>
    simp only [Happening.attempt?] at hw
    split at hw
    · cases hw; exact ⟨rfl, ‹_›⟩
    · cases hw
  | _ => cases hw

lemma save?_eq_some {i : Nat} {h : Happening} {p : Nat × State} (hp : h.save? i = some p) :
    ∃ time, h = .saved i p.1 time p.2 := by
  cases h with
  | saved k job time state =>
    simp only [Happening.save?] at hp
    split at hp
    · cases hp; exact ⟨time, by rw [‹k = i›]⟩
    · cases hp
  | _ => cases hp

lemma attempt?_aside {i : Nat} {h : Happening} (hh : h.isAside) : h.attempt? i = none := by
  cases h <;> first | rfl | cases hh

lemma owed_concat (i : Nat) (tr : List Happening) (h : Happening) :
    owed i (tr ++ [h]) = owe i (owed i tr) h := by
  simp [owed]

lemma owed_saved (i k id time : Nat) (state : State) (tr : List Happening) :
    owed i (tr ++ [.saved k id time state]) = if k = i then some (id, state) else owed i tr := by
  rw [owed_concat]
  by_cases h : k = i <;> simp [owe, Happening.attempt?, Happening.save?, h]

lemma owed_wrote (i : Nat) (w : Write) (tr : List Happening) :
    owed i (tr ++ [.wrote w]) = if w.saver = i then none else owed i tr := by
  rw [owed_concat]
  by_cases h : w.saver = i <;> simp [owe, Happening.attempt?, Happening.save?, h]

lemma owed_finished (i id : Nat) (tr : List Happening) :
    owed i (tr ++ [.finished id]) = owed i tr := by
  simp [owed_concat, owe, Happening.attempt?, Happening.save?]

lemma owed_aside (i : Nat) (tr : List Happening) {hs : List Happening}
    (hq : ∀ h ∈ hs, h.isAside) : owed i (tr ++ hs) = owed i tr := by
  induction hs using List.reverseRecOn with
  | nil => simp
  | append_singleton hs h ih =>
    have hh : h.isAside := hq h (by simp)
    rw [← List.append_assoc, owed_concat, ih fun h' hh' => hq h' (by simp [hh'])]
    cases h <;> first | rfl | cases hh

lemma LastSave.owed_eq {i job : Nat} {state : State} {tr since : List Happening}
    (h : LastSave i job state tr since) :
    owed i tr = if attempts i since = [] then some (job, state) else none := by
  obtain ⟨hs, before, time, rfl⟩ := h
  induction since using List.reverseRecOn with
  | nil => rw [owed_concat]; simp [owe, Happening.attempt?, Happening.save?, attempts]
  | append_singleton since h ih =>
    rw [saves_append, List.append_eq_nil_iff] at hs
    have hh : h.save? i = none := by simpa using hs.2
    rw [← List.cons_append, ← List.append_assoc, owed_concat, ih hs.1]
    cases ha : h.attempt? i <;> simp [owe, ha, hh]

lemma exists_lastSave {i job : Nat} {state : State} {tr : List Happening}
    (h : owed i tr = some (job, state)) :
    ∃ since, LastSave i job state tr since ∧ attempts i since = [] := by
  induction tr using List.reverseRecOn with
  | nil => cases h
  | append_singleton tr x ih =>
    rw [owed_concat, owe] at h
    split at h
    · rename_i hx
      cases hs : x.save? i with
      | none =>
        rw [hs] at h
        obtain ⟨since, ⟨hsince, before, time, rfl⟩, ha⟩ := ih h
        exact ⟨since ++ [x], ⟨by simp [hsince, hs], before, time, by simp⟩, by simp [ha, hx]⟩
      | some p =>
        rw [hs] at h
        cases h
        obtain ⟨time, rfl⟩ := save?_eq_some hs
        exact ⟨[], ⟨rfl, tr, time, rfl⟩, rfl⟩
    · cases h

/-- An attempt to write the state that was saved with the job, by a flush or that very job. -/
structure Write.Carries (w : Write) (job : Nat) (state : State) : Prop where
  key : w.key = itemKey
  text : w.text = State.codec.text state.clean
  job : ∀ id, w.job = some id → id = job

/-- The attempt carries the last save, which was not handed over before. -/
def Rightful (w : Write) (before : List Happening) : Prop :=
  ∃ job state, owed w.saver before = some (job, state) ∧ w.Carries job state

def Orderly (tr : List Happening) : Prop :=
  ∀ before w after, tr = before ++ .wrote w :: after → Rightful w before

lemma Orderly.of_append {tr hs : List Happening} (h : Orderly (tr ++ hs)) : Orderly tr :=
  fun before w after ht => h before w (after ++ hs) (by simp [ht])

lemma Orderly.concat {tr : List Happening} {h : Happening} (ho : Orderly tr)
    (hh : ∀ w, h = .wrote w → Rightful w tr) : Orderly (tr ++ [h]) := by
  intro before w after ht
  induction after using List.reverseRecOn with
  | nil =>
    obtain ⟨rfl, hw⟩ := List.append_inj' ht rfl
    exact hh w (List.singleton_inj.mp hw)
  | append_singleton after x _ =>
    rw [← List.cons_append, ← List.append_assoc] at ht
    exact ho before w after (List.append_inj' ht rfl).1

lemma Orderly.aside {tr hs : List Happening} (ho : Orderly tr) (hq : ∀ h ∈ hs, h.isAside) :
    Orderly (tr ++ hs) := by
  induction hs using List.reverseRecOn with
  | nil => simpa using ho
  | append_singleton hs h ih =>
    rw [← List.append_assoc]
    refine (ih fun h' hh' => hq h' (by simp [hh'])).concat ?_
    rintro w rfl
    simpa [Happening.isAside] using hq (.wrote w) (by simp)

/-- After the last save there was at most one attempt, and it was of that save. -/
lemma Orderly.handed {i job : Nat} {state : State} {tr since : List Happening} (ho : Orderly tr)
    (h : LastSave i job state tr since) :
    attempts i since = [] ∨ ∃ w, attempts i since = [w] ∧ w.Carries job state := by
  obtain ⟨hs, before, time, rfl⟩ := h
  induction since using List.reverseRecOn with
  | nil => exact .inl rfl
  | append_singleton since x ih =>
    rw [saves_append, List.append_eq_nil_iff] at hs
    rw [← List.cons_append, ← List.append_assoc] at ho
    have hbefore := ih hs.1 ho.of_append
    cases hx : x.attempt? i with
    | none => simpa [hx] using hbefore
    | some w =>
      obtain ⟨rfl, rfl⟩ := attempt?_eq_some hx
      obtain ⟨job', state', howed, hcarries⟩ := ho _ w [] rfl
      have hlast : LastSave w.saver job state _ since := ⟨hs.1, before, time, rfl⟩
      rw [hlast.owed_eq] at howed
      split at howed
      · rename_i hnone
        cases howed
        exact .inr ⟨w, by simp [hnone, hx], hcarries⟩
      · cases howed

namespace Desk

/-! ### Invariant -/

variable {σ : Type}

/-- The state that a saver is to write. -/
def pending? (d : Desk σ) (i : Nat) : Option State := d.savers[i]?.bind Saver.pending

/-- The job is not over, and it alone, if it still runs, is up to date and will write. -/
structure InCharge (d : Desk σ) (i id : Nat) : Prop where
  made : id < d.made
  going : .finished id ∉ d.trace
  current : ∀ j ∈ d.jobs, j.id = id ↔
    j.saver = i ∧ ∃ s, d.savers[i]? = some s ∧ j.generation = s.generation

/-- What a saver has pending is what the trace owes, and a job is in charge of it. -/
structure Kept (d : Desk σ) : Prop where
  pending : ∀ i, d.pending? i = (owed i d.trace).map Prod.snd
  inCharge : ∀ i id state, owed i d.trace = some (id, state) → d.InCharge i id
  jobs : ∀ j ∈ d.jobs, j.id < d.made
  ended : ∀ id, .finished id ∈ d.trace → id < d.made
  outdated : ∀ j ∈ d.jobs, ∃ s, d.savers[j.saver]? = some s ∧ j.generation ≤ s.generation
  orderly : Orderly d.trace

lemma kept_new (store : σ) (timer : Timer) (windows : List Nat) :
    Kept (.new store timer windows) where
  pending i := by
    cases h : windows[i]? <;> simp [pending?, new, owed, h]
  inCharge := by simp [new, owed]
  jobs := by simp [new]
  ended := by simp [new]
  outdated := by simp [new]
  orderly := by simp [Orderly, new]

lemma Stroke.kept_jobs {d d' : Desk σ} (hs : Stroke d d') (h : Kept d) :
    ∀ j ∈ d'.jobs, j.id < d'.made := by
  intro j hj
  rcases hs.job_cases hj with ⟨j₀, hj₀, hid, -, -⟩ | ⟨hid, hmade, -⟩
  · have := h.jobs j₀ hj₀
    have := hs.made_le
    omega
  · omega

lemma Stroke.kept_outdated {d d' : Desk σ} (hs : Stroke d d') (h : Kept d) :
    ∀ j ∈ d'.jobs, ∃ s, d'.savers[j.saver]? = some s ∧ j.generation ≤ s.generation := by
  intro j hj
  rcases hs.job_cases hj with ⟨j₀, hj₀, -, hsaver, hgen⟩ | ⟨-, -, s, hss, hgen⟩
  · obtain ⟨s, hss, hle⟩ := h.outdated j₀ hj₀
    obtain ⟨s', hs', hle'⟩ := hs.generation_le hss
    exact ⟨s', hsaver ▸ hs', by omega⟩
  · exact ⟨s, hss, Nat.le_of_eq hgen⟩

lemma Kept.aside {d d' : Desk σ} (h : Kept d) {hs : List Happening}
    (savers : d'.savers = d.savers) (made : d'.made = d.made)
    (jobs : ∀ j ∈ d'.jobs, ∃ j₀ ∈ d.jobs, j.Same j₀)
    (trace : d'.trace = d.trace ++ hs) (quiet : ∀ h ∈ hs, h.isAside) : Kept d' := by
  have stroke := Stroke.aside hs savers made jobs trace quiet
  have howed (i : Nat) : owed i d'.trace = owed i d.trace := by rw [trace, owed_aside i _ quiet]
  have hended (id : Nat) : .finished id ∈ d'.trace ↔ .finished id ∈ d.trace := by
    rw [trace, List.mem_append, or_iff_left]
    exact fun hm => by simpa [Happening.isAside] using quiet _ hm
  refine ⟨fun i => ?_, fun i id state ho => ?_, stroke.kept_jobs h, fun id hid => ?_,
    stroke.kept_outdated h, ?_⟩
  · rw [howed, pending?, savers]
    exact h.pending i
  · obtain ⟨hm, hg, hc⟩ := h.inCharge i id state (howed i ▸ ho)
    refine ⟨made ▸ hm, fun hf => hg ((hended id).mp hf), fun j hj => ?_⟩
    obtain ⟨j₀, hj₀, hid₀, hsaver, hgen⟩ := jobs j hj
    rw [savers, hid₀, hsaver, hgen]
    exact hc j₀ hj₀
  · exact made ▸ h.ended id ((hended id).mp hid)
  · rw [trace]
    exact h.orderly.aside quiet

lemma Kept.joined {d : Desk σ} (h : Kept d) (window : Nat) : Kept (d.addSaver window) := by
  have stroke := Stroke.joined d window
  have hpending (i : Nat) : (d.addSaver window).pending? i = d.pending? i := by
    simp only [pending?, addSaver, List.getElem?_append]
    split
    · rfl
    · rename_i hi
      have hnone : d.savers[i]? = none := List.getElem?_eq_none (by omega)
      cases hk : i - d.savers.length <;> simp [hnone]
  refine ⟨fun i => (hpending i).trans (h.pending i), fun i id state ho => ?_, stroke.kept_jobs h,
    h.ended, stroke.kept_outdated h, h.orderly⟩
  obtain ⟨hm, hg, hc⟩ := h.inCharge i id state ho
  refine ⟨hm, hg, fun j hj => ?_⟩
  have hp : d.pending? i = some state := by rw [h.pending i]; exact congrArg (·.map Prod.snd) ho
  obtain ⟨s, hs, -⟩ := Option.bind_eq_some_iff.mp hp
  obtain ⟨hi, -⟩ := List.getElem?_eq_some_iff.mp hs
  rw [addSaver, List.getElem?_append_left hi]
  exact hc j hj

lemma pending?_set {d : Desk σ} {i : Nat} {s : Saver} (hs : d.savers[i]? = some s) (s' : Saver)
    (k : Nat) :
    ((d.savers.set i s')[k]?.bind Saver.pending) = if i = k then s'.pending else d.pending? k := by
  rw [getElem?_set_saver hs]
  split <;> rfl

/-- A job in charge stays so when another saver changes. -/
lemma InCharge.set {d d' : Desk σ} {i k id : Nat} {s s' : Saver} (h : d.InCharge k id)
    (hs : d.savers[i]? = some s) (hne : i ≠ k) (hmade : d.made ≤ d'.made)
    (htrace : .finished id ∈ d'.trace → .finished id ∈ d.trace)
    (hjobs : ∀ j ∈ d'.jobs, j ∈ d.jobs ∨ j.id = d.made ∧ j.saver = i)
    (hsavers : d'.savers = d.savers.set i s') : d'.InCharge k id := by
  refine ⟨Nat.lt_of_lt_of_le h.made hmade, fun hf => h.going (htrace hf), fun j hj => ?_⟩
  rw [hsavers, getElem?_set_saver hs, if_neg hne]
  rcases hjobs j hj with hj | ⟨hid, hi⟩
  · exact h.current j hj
  · exact ⟨fun he => absurd h.made (by omega), fun he => absurd (hi.symm.trans he.1) hne⟩

lemma Kept.saved {d : Desk σ} (h : Kept d) {i : Nat} {s : Saver} (hs : d.savers[i]? = some s)
    (state : State) : Kept (d.save i state) := by
  have stroke := Stroke.saved hs state
  have hjobs := stroke.kept_jobs h
  have hout := stroke.kept_outdated h
  rw [save_eq hs] at hjobs hout ⊢
  refine ⟨fun k => ?_, fun k id st ho => ?_, hjobs, fun id hid => ?_, hout,
    h.orderly.concat (by simp)⟩
  · rw [pending?, pending?_set hs, owed_saved, h.pending k]
    split <;> rfl
  · rw [owed_saved] at ho
    split at ho
    · rename_i hik
      cases ho
      subst hik
      refine ⟨Nat.lt_succ_self _, fun hf => ?_, fun j hj => ?_⟩
      · exact absurd (h.ended _ (by simpa using hf)) (Nat.lt_irrefl _)
      · rw [getElem?_set_saver hs, if_pos rfl]
        rcases List.mem_append.mp hj with hold | hnew
        · refine ⟨fun hid => absurd (h.jobs j hold) (by omega), ?_⟩
          rintro ⟨rfl, s', ⟨⟩, hgen⟩
          obtain ⟨s₀, hs₀, hle⟩ := h.outdated j hold
          rw [hs] at hs₀
          cases hs₀
          exact absurd (hgen ▸ hle) (Nat.not_succ_le_self _)
        · rw [List.mem_singleton] at hnew
          subst hnew
          exact ⟨fun _ => ⟨rfl, _, rfl, rfl⟩, fun _ => rfl⟩
    · rename_i hik
      refine (h.inCharge k id st ho).set hs hik (Nat.le_succ _) (by simp) (fun j hj => ?_) rfl
      rcases List.mem_append.mp hj with hj | hj
      · exact .inl hj
      · rw [List.mem_singleton] at hj
        exact .inr (by simp [hj])
  · exact Nat.lt_succ_of_lt (h.ended id (by simpa using hid))

lemma Kept.wrote {d : Desk σ} (h : Kept d) {s : Saver} {state : State} {generation : Nat}
    {w : Write} (hs : d.savers[w.saver]? = some s) (hp : s.pending = some state)
    (hle : s.generation ≤ generation) (hkey : w.key = itemKey)
    (htext : w.text = State.codec.text state.clean)
    (hjob : ∀ id, w.job = some id → ∃ j ∈ d.jobs,
      j.id = id ∧ j.saver = w.saver ∧ j.generation = s.generation) (store : σ) :
    Kept { d with
      store
      savers := d.savers.set w.saver ⟨s.window, generation, none⟩
      trace := d.trace ++ [.wrote w] } := by
  have stroke := Stroke.wrote hs hp hle hjob hkey htext store
  have hpending : d.pending? w.saver = some state := by rw [pending?, hs]; exact hp
  refine ⟨fun k => ?_, fun k id st ho => ?_, stroke.kept_jobs h, fun id hid => ?_,
    stroke.kept_outdated h, h.orderly.concat ?_⟩
  · rw [pending?, pending?_set hs, owed_wrote, h.pending k]
    split <;> rfl
  · rw [owed_wrote] at ho
    split at ho
    · cases ho
    · exact (h.inCharge k id st ho).set hs ‹_› (Nat.le_refl _) (by simp) (fun j hj => .inl hj) rfl
  · exact h.ended id (by simpa using hid)
  · rintro w' ⟨⟩
    rw [h.pending] at hpending
    obtain ⟨⟨id, st⟩, howed, rfl⟩ := Option.map_eq_some_iff.mp hpending
    refine ⟨id, st, howed, hkey, htext, fun id' hid' => ?_⟩
    obtain ⟨j, hj, rfl, hsaver, hgen⟩ := hjob id' hid'
    exact ((h.inCharge _ id st howed).current j hj).mpr ⟨hsaver, s, hs, hgen⟩

lemma Kept.moved {d : Desk σ} (h : Kept d) {i : Nat} {s : Saver} (hs : d.savers[i]? = some s)
    (hp : s.pending = none) :
    Kept (d.setSaver i { s with generation := s.generation + 1 }) := by
  have stroke := Stroke.moved hs hp
  have hnone : d.pending? i = none := by rw [pending?, hs]; exact hp
  refine ⟨fun k => ?_, fun k id st ho => ?_, stroke.kept_jobs h, h.ended, stroke.kept_outdated h,
    h.orderly⟩
  · rw [pending?, setSaver, pending?_set hs, ← h.pending k]
    split
    · rename_i hik
      rw [← hik, hnone, hp]
    · rfl
  · have howed : owed k d.trace = some (id, st) := ho
    have hik : i ≠ k := by
      rintro rfl
      rw [h.pending, howed] at hnone
      cases hnone
    exact (h.inCharge k id st howed).set hs hik (Nat.le_refl _) (fun hf => hf)
      (fun j hj => .inl hj) rfl

lemma Kept.finished {d : Desk σ} (h : Kept d) {j : Job} (live : j ∈ d.jobs)
    (idle : ∀ s, d.savers[j.saver]? = some s → s.generation = j.generation → s.pending = none) :
    Kept ((d.remove j.id).note (.finished j.id)) := by
  have stroke := Stroke.finished live idle
  refine ⟨fun k => ?_, fun k id st ho => ?_, stroke.kept_jobs h, fun id hid => ?_,
    stroke.kept_outdated h, h.orderly.concat (by simp)⟩
  · exact (h.pending k).trans (by rw [note, owed_finished]; rfl)
  · rw [note, owed_finished] at ho
    obtain ⟨hm, hg, hc⟩ := h.inCharge k id st ho
    refine ⟨hm, fun hf => ?_, fun j' hj' => hc j' (List.mem_filter.mp hj').1⟩
    rcases List.mem_append.mp hf with hf | hf
    · exact hg hf
    · -- the job that ends would be the one in charge, but its saver has nothing pending
      cases List.mem_singleton.mp hf
      obtain ⟨rfl, s, hs, hgen⟩ := (hc j live).mp rfl
      have hp : d.pending? j.saver = none := by rw [pending?, hs]; exact idle s hs hgen.symm
      have howed : owed j.saver d.trace = some (j.id, st) := ho
      rw [h.pending, howed] at hp
      cases hp
  · rcases List.mem_append.mp hid with hid | hid
    · exact h.ended id hid
    · cases List.mem_singleton.mp hid
      exact h.jobs j live

lemma kept_stroke {d d' : Desk σ} (hs : Stroke d d') (h : Kept d) : Kept d' := by
  cases hs with
  | aside hs savers made jobs trace quiet => exact h.aside savers made jobs trace quiet
  | joined window => exact h.joined window
  | saved saver state => exact h.saved saver state
  | wrote saver pending generation_le job key text store =>
    exact h.wrote saver pending generation_le key text job store
  | moved saver idle => exact h.moved saver idle
  | finished live idle => exact h.finished live idle

/-- **Invariant.** Every run keeps it. -/
theorem kept_acts [ItemStore σ] (store : σ) (timer : Timer) (windows : List Nat)
    (as : List (Act σ)) : Kept ((Desk.new store timer windows).acts as) :=
  strokes_inv kept_stroke (strokes_acts _ as) (kept_new store timer windows)

/-- The last save was handed over once, or it is pending and its job is not over. -/
lemma Kept.lastSave {d : Desk σ} (h : Kept d) {i job : Nat} {state : State}
    {since : List Happening} (hl : LastSave i job state d.trace since) :
    (∃ w, attempts i since = [w] ∧ w.Carries job state) ∨
      attempts i since = [] ∧ d.pending? i = some state ∧ job < d.made ∧
        .finished job ∉ d.trace := by
  rcases h.orderly.handed hl with hnone | hw
  · have howed : owed i d.trace = some (job, state) := by rw [hl.owed_eq, if_pos hnone]
    have hc := h.inCharge i job state howed
    exact .inr ⟨hnone, by rw [h.pending, howed]; rfl, hc.made, hc.going⟩
  · exact .inl hw

/-! ### After a flush -/

/-- Since the trace was `tr`, no job made before wrote for the saver, and none will. -/
structure Cut (n i : Nat) (tr : List Happening) (d : Desk σ) : Prop where
  made : n ≤ d.made
  stale : ∀ j ∈ d.jobs, j.saver = i → j.id < n →
    ∃ s, d.savers[i]? = some s ∧ j.generation < s.generation
  later : ∃ hs, d.trace = tr ++ hs ∧ ∀ w ∈ attempts i hs, ∀ id, w.job = some id → n ≤ id

lemma cut_stroke {n i : Nat} {tr : List Happening} {d d' : Desk σ} (hs : Stroke d d')
    (h : Cut n i tr d) : Cut n i tr d' := by
  obtain ⟨hs₀, htr, hw⟩ := h.later
  refine ⟨Nat.le_trans h.made hs.made_le, fun j hj hi hn => ?_, ?_⟩
  · rcases hs.job_cases hj with ⟨j₀, hj₀, hid, hsaver, hgen⟩ | ⟨hid, -, -⟩
    · obtain ⟨s, hss, hlt⟩ := h.stale j₀ hj₀ (hsaver ▸ hi) (hid ▸ hn)
      obtain ⟨s', hs', hle⟩ := hs.generation_le hss
      exact ⟨s', hs', by omega⟩
    · have := h.made
      omega
  · have quiet {hs₁ : List Happening} (ht : d'.trace = d.trace ++ hs₁)
        (hq : attempts i hs₁ = []) :
        ∃ hs, d'.trace = tr ++ hs ∧ ∀ w ∈ attempts i hs, ∀ id, w.job = some id → n ≤ id :=
      ⟨hs₀ ++ hs₁, by rw [ht, htr, List.append_assoc], by simpa [hq] using hw⟩
    cases hs with
    | aside hs _ _ _ trace hq =>
      exact quiet trace (List.filterMap_eq_nil_iff.mpr fun x hx => attempt?_aside (hq x hx))
    | joined window => exact quiet (List.append_nil _).symm rfl
    | saved saver state =>
      rw [save_eq saver] at quiet ⊢
      exact quiet rfl rfl
    | @wrote s _ _ w saver _ _ job =>
      refine ⟨hs₀ ++ [.wrote w], by simp [htr], fun w' hw' id hid => ?_⟩
      simp only [attempts_append, attempts_cons, attempts_nil, List.append_nil,
        List.mem_append] at hw'
      rcases hw' with hw' | hw'
      · exact hw w' hw' id hid
      · obtain ⟨heq, rfl⟩ := attempt?_eq_some (Option.mem_toList.mp hw')
        cases heq
        obtain ⟨j, hj, rfl, hsaver, hgen⟩ := job id hid
        by_contra hn
        obtain ⟨s', hs', hlt⟩ := h.stale j hj hsaver (by omega)
        rw [saver] at hs'
        cases hs'
        omega
    | moved => exact quiet (List.append_nil _).symm rfl
    | finished => exact quiet rfl rfl

variable [ItemStore σ]

lemma flush_frame {d : Desk σ} {i : Nat} {s : Saver} (hs : d.savers[i]? = some s) :
    (d.flush i).made = d.made ∧ (d.flush i).jobs = d.jobs ∧
      (d.flush i).savers[i]? = some ⟨s.window, s.generation + 1, none⟩ := by
  have hset (s' : Saver) : (d.savers.set i s')[i]? = some s' :=
    (getElem?_set_saver hs s' i).trans (if_pos rfl)
  cases hp : s.pending with
  | none =>
    rw [flush_idle hs hp]
    exact ⟨rfl, rfl, by rw [setSaver, note, hset, hp]⟩
  | some state =>
    obtain ⟨rs, h⟩ := (d.note (.flushed i d.clock)).attempt_eq i
      { s with generation := s.generation + 1 } none state
    rw [flush_pending hs hp, h]
    exact ⟨rfl, rfl, hset _⟩

lemma Kept.cut_flush {d : Desk σ} (h : Kept d) {i : Nat} {s : Saver}
    (hs : d.savers[i]? = some s) : Cut d.made i (d.flush i).trace (d.flush i) := by
  obtain ⟨hmade, hjobs, hsaver⟩ := flush_frame hs
  refine ⟨Nat.le_of_eq hmade.symm, fun j hj hi _ => ⟨_, hsaver, ?_⟩, [], by simp, by simp⟩
  obtain ⟨s', hs', hle⟩ := h.outdated j (hjobs ▸ hj)
  rw [hi, hs] at hs'
  cases hs'
  exact Nat.lt_succ_of_le hle

end Desk

open Desk

/-- **No save is lost.** At every point of a run the state saved last was handed to the store
once, or it is pending and the job of that very save is not over; so it was handed over when all
jobs are over. A flush hands it over at once if nobody did, and tells the store nothing
otherwise; and no job made before writes after it.

The attempts are read off the trace, where each stands with what the store answered to it
(`attempt_eq`); the item is told from them (`item_acts`). -/
theorem no_save_lost {σ : Type} [ItemStore σ] (store : σ) (timer : Timer) (windows : List Nat)
    (as : List (Act σ)) :
    let d := (Desk.new store timer windows).acts as
    (∀ i job state since, LastSave i job state d.trace since →
      (∃ w, attempts i since = [w] ∧ w.Carries job state) ∨
        attempts i since = [] ∧ d.pending? i = some state ∧ .finished job ∉ d.trace) ∧
    ((∀ job < d.made, .finished job ∈ d.trace) →
      ∀ i job state since, LastSave i job state d.trace since →
        ∃ w, attempts i since = [w] ∧ w.Carries job state) ∧
    ∀ i s, d.savers[i]? = some s →
      (∀ job state since, LastSave i job state d.trace since → attempts i since = [] →
        ∃ (w : Write) (rs : List LogRecord),
          (d.flush i).trace = d.trace ++ .flushed i d.clock :: .wrote w :: rs.map .logged ∧
            w.saver = i ∧ w.job = none ∧ w.Carries job state) ∧
      ((∀ job state since, LastSave i job state d.trace since → attempts i since ≠ []) →
        (d.flush i).trace = d.trace ++ [.flushed i d.clock]) ∧
      ∀ as', ∃ later, ((d.flush i).acts as').trace = (d.flush i).trace ++ later ∧
        ∀ w ∈ attempts i later, ∀ job, w.job = some job → d.made ≤ job := by
  intro d
  have h : Kept d := kept_acts store timer windows as
  refine ⟨fun i job state since hl => ?_, fun hall i job state since hl => ?_,
    fun i s hs => ⟨fun job state since hl hnone => ?_, fun hall => ?_, fun as' => ?_⟩⟩
  · rcases h.lastSave hl with hw | ⟨hnone, hp, -, hgoing⟩
    · exact .inl hw
    · exact .inr ⟨hnone, hp, hgoing⟩
  · rcases h.lastSave hl with hw | ⟨-, -, hmade, hgoing⟩
    · exact hw
    · exact absurd (hall job hmade) hgoing
  · have hp : s.pending = some state := by
      have hp := h.pending i
      rw [hl.owed_eq, if_pos hnone, pending?, hs] at hp
      exact hp
    obtain ⟨rs, ha⟩ := (d.note (.flushed i d.clock)).attempt_eq i
      { s with generation := s.generation + 1 } none state
    rw [flush_pending hs hp, ha]
    exact ⟨_, rs, List.append_assoc .., rfl, rfl, rfl, rfl, by simp⟩
  · have hp : s.pending = none := by
      have hp := h.pending i
      rw [pending?, hs] at hp
      cases ho : owed i d.trace with
      | none => rw [ho] at hp; exact hp
      | some p =>
        obtain ⟨since, hl, hnone⟩ := exists_lastSave ho
        exact absurd hnone (hall _ _ since hl)
    rw [flush_idle hs hp]
    rfl
  · exact (strokes_inv cut_stroke (strokes_acts _ as') (h.cut_flush hs)).later

/-- A flush hands over the second of two saves while the job of the first is asleep. -/
theorem no_save_lost_at_flush :
    let d := (Desk.new (Memory.new none) (.clock none) [50]).run
      [.save 0 .initial, .release 0, .poll 0, .save 0 .initial]
    ∃ (w : Write) (rs : List LogRecord),
      (d.flush 0).trace = d.trace ++ .flushed 0 d.clock :: .wrote w :: rs.map .logged ∧
        w.saver = 0 ∧ w.job = none ∧ w.Carries 1 .initial := by
  intro d
  have hd : d = (Desk.new (Memory.new none) (.clock none) [50]).acts
      [.save 0 .initial, .release 0, .poll 0, .save 0 .initial] := run_eq_acts _ _
  rw [hd]
  have h := (no_save_lost (Memory.new none) (.clock none) [50]
    [.save 0 .initial, .release 0, .poll 0, .save 0 .initial]).2.2
  exact (h 0 ⟨50, 2, some .initial⟩ rfl).1 1 .initial [] ⟨rfl, _, 0, rfl⟩ rfl

end Tipping.Payments
