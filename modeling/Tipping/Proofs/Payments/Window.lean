import Tipping.Proofs.Payments.Course

/-!
The window of the settings and the browser's timer.

The settings give the window in 64 bits and the timer counts 32. On a page a save that nothing
replaces is written once its window is over, if the timer can count that far; otherwise never.
-/

namespace Tipping

open Browser Payments

/-! ### Pages -/

/-- A save or a flush of the saver; what does not read as a state is not saved. -/
def PageEvent.replaces {π : Type} (i : Nat) : PageEvent π → Bool
  | .save k text => k = i && (Payments.State.codec.readText text).isOk
  | .flush k => k = i
  | _ => false

/-- The time that is let pass. -/
def PageEvent.span {π : Type} : PageEvent π → Nat
  | .advance ms => ms
  | _ => 0

def PageEvent.waited {π : Type} : List (PageEvent π) → Nat
  | [] => 0
  | e :: es => e.span + waited es

namespace PaymentsPage

variable {π : Type}

/-- What a page may do with its desk on an event, once the time of the event is past. -/
inductive Does (p : PaymentsPage π) : PageEvent π → Act π → Prop where
  | log (e : PageEvent π) (r : LogRecord) : Does p e (.log r)
  | poll (e : PageEvent π) (id : Nat) : Does p e (.poll id)
  | find (f : π → π) : Does p .setUp (.outside f)
  | join : Does p .setUp (.join (Config.load p.settings).config.window)
  | save {i : Nat} {text : String} {state : Payments.State}
      (read : Payments.State.codec.readText text = .ok state) :
      Does p (.save i text) (.save i state)
  | release (i : Nat) (text : String) : Does p (.save i text) (.release p.desk.made)
  | load : Does p .load .load
  | flush (i : Nat) : Does p (.flush i) (.flush i)
  | outside (f : π → π) : Does p (.outside f) (.outside f)

variable {p : PaymentsPage π} {e : PageEvent π} {a : Act π}

lemma Does.leaves {i id : Nat} (h : p.Does e a) (he : e.replaces i = false)
    (hid : id < p.desk.made) : a.Leaves i id := by
  cases h with
  | save read =>
    simpa [PageEvent.replaces, read, Except.isOk, Except.toBool, Act.Leaves] using he
  | release => exact Nat.ne_of_gt hid
  | flush => simpa [PageEvent.replaces, Act.Leaves] using he
  | _ => trivial

lemma Does.quick (h : p.Does e a) : ∀ ms, a ≠ .advance ms := by
  rintro ms rfl
  cases h

variable [PageHost π]

/-- A page lets the time pass and then does nothing but what it may do. -/
lemma exists_does (p : PaymentsPage π) (e : PageEvent π) :
    ∃ as, (p.step e).desk = (p.desk.advance e.span).acts as ∧ ∀ a ∈ as, p.Does e a := by
  have polls (d : Desk π) : ∀ a ∈ d.jobs.map fun j => (.poll j.id : Act π), p.Does e a := by
    simp [Does.poll]
  cases e with
  | setUp =>
    let logs : List (Act π) := (Config.load p.settings).records.map .log
    let find : Act π := .outside fun s => (findStore s).2
    have hlogs : ∀ a ∈ logs ++ [find], p.Does .setUp a := by
      simp [logs, find, or_imp, forall_and, Does.log, Does.find]
    rw [setUp_eq]
    split
    · exact ⟨logs ++ [find], by rw [Desk.acts_append]; rfl, hlogs⟩
    · refine ⟨logs ++ [find] ++ [.join _], by rw [Desk.acts_append, Desk.acts_append]; rfl, ?_⟩
      rw [List.forall_mem_append]
      exact ⟨hlogs, by simpa using Does.join⟩
  | save i text =>
    simp only [step, save]
    split
    · exact ⟨[.log _], rfl, by simp [Does.log]⟩
    · rename_i state hread
      rw [Desk.pollAll_eq_acts]
      exact ⟨.save i state :: .release p.desk.made :: _, rfl, List.forall_mem_cons.mpr
        ⟨.save hread, List.forall_mem_cons.mpr ⟨.release i text, polls _⟩⟩⟩
  | load => exact ⟨[.load], rfl, by simp [Does.load]⟩
  | flush i =>
    exact ⟨.flush i :: _, Desk.pollAll_eq_acts _, List.forall_mem_cons.mpr ⟨.flush i, polls _⟩⟩
  | advance ms => exact ⟨_, Desk.pollAll_eq_acts _, polls _⟩
  | outside f => exact ⟨[.outside f], rfl, by simp [Does.outside]⟩

lemma settings_step (p : PaymentsPage π) (e : PageEvent π) : (p.step e).settings = p.settings := by
  cases e with
  | setUp =>
    rw [setUp_eq]
    split <;> rfl
  | save i text =>
    simp only [step, save]
    split <;> rfl
  | _ => rfl

lemma clock_step (p : PaymentsPage π) (e : PageEvent π) :
    (p.step e).desk.clock = p.desk.clock + e.span := by
  obtain ⟨as, h, has⟩ := exists_does p e
  rw [h, Desk.clock_acts _ fun a ha => (has a ha).quick]
  rfl

lemma clock_run (p : PaymentsPage π) (es : List (PageEvent π)) :
    (p.run es).desk.clock = p.desk.clock + PageEvent.waited es := by
  induction es generalizing p with
  | nil => rfl
  | cons e es ih =>
    rw [run_cons, ih, clock_step, Nat.add_assoc]
    rfl

/-- The desk goes by the settings: all its savers have their window, and the timer is the
browser's. -/
structure InForce (p : PaymentsPage π) : Prop where
  kept : Desk.Kept p.desk
  timer : p.desk.timer = .clock (some longestTimeout)
  windows : ∀ s ∈ p.desk.savers, s.window = (Config.load p.settings).config.window

lemma inForce_step {p : PaymentsPage π} (h : InForce p) (e : PageEvent π) :
    InForce (p.step e) := by
  obtain ⟨as, hd, has⟩ := exists_does p e
  refine ⟨?_, ?_, ?_⟩
  · have hspan : Desk.Strokes p.desk (p.desk.advance e.span) := .single (Desk.stroke_still _ _ _)
    rw [hd]
    exact Desk.strokes_inv Desk.kept_stroke (hspan.trans (Desk.strokes_acts _ as)) h.kept
  · rw [hd, Desk.timer_acts]
    exact h.timer
  · rw [settings_step, hd]
    refine Desk.windows_acts (d := p.desk.advance e.span) h.windows fun window ha => ?_
    cases has _ ha
    rfl

lemma inForce_new (settings : Option String) (host : π) : InForce (new settings host).2 :=
  inForce_step (p := ⟨settings, .new host (.clock (some longestTimeout)) [], none⟩)
    ⟨Desk.kept_new .., rfl, by simp [Desk.new]⟩ .setUp

lemma inForce_run {p : PaymentsPage π} (h : InForce p) (es : List (PageEvent π)) :
    InForce (p.run es) := by
  induction es generalizing p with
  | nil => exact h
  | cons e es ih => exact ih (inForce_step h e)

lemma settings_run (p : PaymentsPage π) (es : List (PageEvent π)) :
    (p.run es).settings = p.settings := by
  induction es generalizing p with
  | nil => rfl
  | cons e es ih => exact (ih (p.step e)).trans (settings_step p e)

lemma settings_new (settings : Option String) (host : π) :
    (new settings host).2.settings = settings :=
  settings_step ⟨settings, .new host (.clock (some longestTimeout)) [], none⟩ .setUp

open Desk in
/-- **Step.** What does not replace the save lets it go on as it should. -/
lemma course_step {i id due : Nat} {state : Payments.State} {fits : Prop} {d₀ : Desk π}
    {p : PaymentsPage π} (h : Course i id state due fits d₀ p.desk) {e : PageEvent π}
    (he : e.replaces i = false) : Course i id state due fits d₀ (p.step e).desk := by
  obtain ⟨as, hd, has⟩ := exists_does p e
  have hleaves : ∀ a ∈ as, a.Leaves i id := fun a ha => (has a ha).leaves he h.last.made
  cases e with
  | advance ms => exact h.advance ms
  | _ => exact hd ▸ h.acts hleaves

open Desk in
lemma course_run {i id due : Nat} {state : Payments.State} {fits : Prop} {d₀ : Desk π}
    {p : PaymentsPage π} (h : Course i id state due fits d₀ p.desk) {es : List (PageEvent π)}
    (hes : ∀ e ∈ es, e.replaces i = false) : Course i id state due fits d₀ (p.run es).desk := by
  induction es generalizing p with
  | nil => exact h
  | cons e es ih =>
    rw [List.forall_mem_cons] at hes
    exact ih (course_step h hes.1) hes.2

end PaymentsPage

open PageEvent PaymentsPage in
/-- **Written when the window is over, if the timer can count that far.** On a page with any
settings and any past, let a saver save a state that nothing of the saver replaces, whatever else
happens. If the window of the settings is beyond the timer the job of the save breaks off and
nothing is ever written. Otherwise it does not break off, nothing is written before the window is
over, and then the state is, once and by that job. -/
theorem written_unless_window_beyond_timer {π : Type} [PageHost π] (settings : Option String)
    (host : π) (es es' : List (PageEvent π)) (i : Nat) (text : String) (state : Payments.State)
    (hi : i < ((PaymentsPage.new settings host).2.run es).desk.savers.length)
    (hread : Payments.State.codec.readText text = .ok state)
    (hes : ∀ e ∈ es', e.replaces i = false) :
    let p := (PaymentsPage.new settings host).2.run es
    let window := (Config.load settings).config.window
    let job := p.desk.made
    ∃ since, ((p.step (.save i text)).run es').desk.trace =
        p.desk.trace ++ .saved i job p.desk.clock state :: since ∧
      (job ∈ brokenOff since ↔ longestTimeout < window) ∧
      (longestTimeout < window ∨ waited es' < window → attempts i since = []) ∧
      (window ≤ longestTimeout → window ≤ waited es' →
        ∃ w, attempts i since = [w] ∧ w.job = some job ∧ w.Carries job state) := by
  intro p window job
  have hp : InForce p := inForce_run (inForce_new settings host) es
  obtain ⟨s, hs⟩ : ∃ s, p.desk.savers[i]? = some s := ⟨_, List.getElem?_eq_getElem hi⟩
  have hwindow : s.window = window := by
    rw [hp.windows s (List.mem_of_getElem? hs), settings_run, settings_new]
  have hsave : p.step (.save i text) =
      { p with desk := ((p.desk.save i state).release job).pollAll } := by
    simp only [step, PaymentsPage.save, hread, job]
  have hcourse : Desk.Course i job state (p.desk.clock + window) (window ≤ longestTimeout)
      (p.desk.save i state) (p.step (.save i text)).desk := by
    rw [hsave, ← hwindow]
    exact Desk.course_save hp.kept hs hp.timer state
  have hclock : ((p.step (.save i text)).run es').desk.clock = p.desk.clock + waited es' := by
    rw [clock_run, clock_step]
    rfl
  have htrace : (p.desk.save i state).trace =
      p.desk.trace ++ [.saved i job p.desk.clock state] := by rw [Desk.save_eq hs]
  obtain ⟨since, ht, hbroken, hnone, hone⟩ := (course_run hcourse hes).exists_since
  rw [Nat.not_le] at hbroken hnone
  rw [hclock, Nat.add_lt_add_iff_left] at hnone
  rw [hclock, Nat.add_le_add_iff_left] at hone
  exact ⟨since, by rw [ht, htrace, List.append_assoc]; rfl, hbroken, hnone, hone⟩

/-- A window with a store that takes every item. -/
structure OpenWindow where
  items : List (String × String)

instance : PageHost OpenWindow where
  hasWindow p := (true, p)
  hasStore p := (.ok true, p)
  getItem key p := (.ok (p.items.lookup key), p)
  setItem key value p := (.ok (), { p with items := Keyed.insert key value p.items })

/-- With the default settings a state saved on a new page is written after 50 milliseconds. -/
theorem written_after_default_window :
    let page := (PaymentsPage.new none (⟨[]⟩ : OpenWindow)).2
    let text := Payments.State.codec.text .initial
    let es : List (PageEvent OpenWindow) := [.load, .advance 49, .save 0 "", .advance 1]
    0 < page.desk.savers.length ∧ Payments.State.codec.readText text = .ok .initial ∧
      (∀ e ∈ es, e.replaces 0 = false) ∧
      ∃ since, ((page.step (.save 0 text)).run es).desk.trace =
          .saved 0 0 0 .initial :: since ∧ 0 ∉ brokenOff since ∧
        ∃ w, attempts 0 since = [w] ∧ w.job = some 0 ∧ w.Carries 0 .initial := by
  intro page text es
  have hi : 0 < page.desk.savers.length := by decide +kernel
  have hread : Payments.State.codec.readText text = .ok .initial := by decide +kernel
  have hes : ∀ e ∈ es, e.replaces 0 = false := by decide +kernel
  have hwindow : (Config.load none).config.window = 50 := by decide +kernel
  obtain ⟨since, ht, hbroken, -, hwritten⟩ :=
    written_unless_window_beyond_timer none (⟨[]⟩ : OpenWindow) [] es 0 text .initial hi hread hes
  rw [hwindow] at hbroken hwritten
  refine ⟨hi, hread, hes, since, ht, fun hm => ?_, hwritten (by decide) (by decide)⟩
  exact absurd (hbroken.mp hm) (by decide)

/-- A window that the settings may name and the timer cannot count: the settings are in force
without a warning, the job of a save breaks off, and nothing is written when the time is over. -/
theorem accepted_window_beyond_timer :
    let settings := some "\x7b\"saveDebounceMs\":4294967296\x7d"
    let page := (PaymentsPage.new settings (⟨[]⟩ : OpenWindow)).2
    let text := Payments.State.codec.text .initial
    let page' := (page.step (.save 0 text)).run [.advance 4294967296]
    (Config.load settings).config.window = 4294967296 ∧ (Config.load settings).records = [] ∧
      page.current = some 0 ∧ Payments.State.codec.readText text = .ok .initial ∧
      0 ∈ brokenOff page'.desk.trace ∧ attempts 0 page'.desk.trace = [] := by
  decide +kernel

end Tipping
