import Mathlib.Tactic.SplitIfs
import Tipping.PaymentsPage
import Tipping.Proofs.Payments.Debounce

/-!
Only the latest state is written, and once.

On a page a text that does not read as a state is no save at all: the page goes on as if the
text had not come, but for the log. An operation adds to the trace without reading it, so pages
that differ only in their logs stay alike.
-/

namespace Tipping

open Browser Payments

namespace Payments

/-! ### Attempts -/

/-- Each attempt carries the last save of its saver and is the first since; so what is replaced
before an attempt is never written. -/
structure WritesLatest (tr : List Happening) : Prop where
  latest : ∀ before w after, tr = before ++ .wrote w :: after →
    ∃ job state since, LastSave w.saver job state before since ∧
      attempts w.saver since = [] ∧ w.Carries job state
  replaced : ∀ i before job time state mid job' time' state' after,
    tr = before ++ .saved i job time state :: (mid ++ .saved i job' time' state' :: after) →
      attempts i mid = [] → ∀ w ∈ attempts i (mid ++ .saved i job' time' state' :: after),
        ∃ p ∈ (job', state') :: saves i after, w.Carries p.1 p.2

/-- The last save is the given one or comes after it. -/
lemma LastSave.mem {i job job' time' : Nat} {state state' : State}
    {before after since : List Happening}
    (h : LastSave i job state (before ++ .saved i job' time' state' :: after) since) :
    (job, state) ∈ (job', state') :: saves i after := by
  obtain ⟨hs, before₁, time, ht⟩ := h
  have hlast := congrArg (fun tr => (saves i tr).getLast?) ht
  have hsave (id t : Nat) (st : State) :
      (Happening.saved i id t st).save? i = some (id, st) := if_pos rfl
  simp only [saves_append, saves_cons, hsave, hs, Option.toList_some, List.singleton_append,
    List.getLast?_concat] at hlast
  rw [List.getLast?_append, Option.or_of_isSome (by simp)] at hlast
  exact List.mem_of_getLast? hlast

lemma mem_attempts {i : Nat} {hs : List Happening} {w : Write} (h : w ∈ attempts i hs) :
    w.saver = i ∧ ∃ a b, hs = a ++ .wrote w :: b := by
  obtain ⟨x, hx, hw⟩ := List.mem_filterMap.mp h
  obtain ⟨rfl, hi⟩ := attempt?_eq_some hw
  exact ⟨hi, List.append_of_mem hx⟩

lemma Orderly.writesLatest {tr : List Happening} (h : Orderly tr) : WritesLatest tr := by
  have latest : ∀ before w after, tr = before ++ .wrote w :: after →
      ∃ job state since, LastSave w.saver job state before since ∧
        attempts w.saver since = [] ∧ w.Carries job state := by
    intro before w after ht
    obtain ⟨job, state, howed, hcarries⟩ := h before w after ht
    obtain ⟨since, hl, hnone⟩ := exists_lastSave howed
    exact ⟨job, state, since, hl, hnone, hcarries⟩
  refine ⟨latest, fun i before job time state mid job' time' state' after ht hmid w hw => ?_⟩
  have hw : w ∈ attempts i after := by simpa [hmid, Happening.attempt?] using hw
  obtain ⟨rfl, a, b, rfl⟩ := mem_attempts hw
  have hsplit : tr = (before ++ .saved w.saver job time state :: mid ++
      .saved w.saver job' time' state' :: a) ++ .wrote w :: b := by simp [ht]
  obtain ⟨job'', state'', since, hl, -, hcarries⟩ := latest _ w b hsplit
  refine ⟨(job'', state''), ?_, hcarries⟩
  rw [saves_append, ← List.cons_append]
  exact List.mem_append_left _ hl.mem

/-! ### Logs -/

def Happening.isLogged : Happening → Bool
  | .logged _ => true
  | _ => false

namespace Desk

variable {σ : Type}

/-- The desk with an older part of its trace. -/
def after (d : Desk σ) (tr : List Happening) : Desk σ := { d with trace := tr ++ d.trace }

/-- The desk as it is but for its logs. -/
def silent (d : Desk σ) : Desk σ := { d with trace := d.trace.filter (!·.isLogged) }

@[simp] lemma after_store (d : Desk σ) (tr : List Happening) : (d.after tr).store = d.store := rfl

@[simp] lemma after_timer (d : Desk σ) (tr : List Happening) : (d.after tr).timer = d.timer := rfl

@[simp] lemma after_savers (d : Desk σ) (tr : List Happening) :
    (d.after tr).savers = d.savers := rfl

@[simp] lemma after_clock (d : Desk σ) (tr : List Happening) : (d.after tr).clock = d.clock := rfl

@[simp] lemma after_job? (d : Desk σ) (tr : List Happening) (id : Nat) :
    (d.after tr).job? id = d.job? id := rfl

lemma after_note (d : Desk σ) (tr : List Happening) (h : Happening) :
    (d.after tr).note h = (d.note h).after tr := by
  simp [after, note]

lemma after_remove (d : Desk σ) (tr : List Happening) (id : Nat) :
    (d.after tr).remove id = (d.remove id).after tr := rfl

lemma after_move (d : Desk σ) (tr : List Happening) (id : Nat) (stage : JobStage) :
    (d.after tr).move id stage = (d.move id stage).after tr := rfl

lemma silent_after (d : Desk σ) (tr : List Happening) :
    (d.after tr).silent = d.silent.after (tr.filter (!·.isLogged)) := by
  simp [silent, after]

lemma eq_of_silent {d d' : Desk σ} (h : d.silent = d'.silent) :
    d' = { d with trace := d'.trace } := by
  cases d
  cases d'
  simp only [silent, Desk.mk.injEq] at h
  simp [h]

lemma silent_note_logged (d : Desk σ) (r : LogRecord) : (d.note (.logged r)).silent = d.silent := by
  simp [silent, note, Happening.isLogged]

variable [ItemStore σ]

lemma after_attempt (d : Desk σ) (tr : List Happening) (i : Nat) (s : Saver) (job : Option Nat)
    (state : State) : (d.after tr).attempt i s job state = (d.attempt i s job state).after tr := by
  simp only [attempt, after, setSaver, note]
  split <;> simp

lemma after_writePending (d : Desk σ) (tr : List Happening) (i : Nat) (job : Option Nat) :
    (d.after tr).writePending i job = (d.writePending i job).after tr := by
  cases hs : d.savers[i]? with
  | none => simp [writePending, after, hs]
  | some s =>
    rw [writePending_eq hs, writePending_eq (d := d.after tr) hs]
    cases s.pending with
    | none => rfl
    | some state => exact after_attempt ..

lemma after_wake (d : Desk σ) (tr : List Happening) (j : Job) :
    (d.after tr).wake j = (d.wake j).after tr := by
  by_cases h : d.savers[j.saver]?.map Saver.generation = some j.generation <;>
    simp [wake, h, after_writePending, after_remove, after_note]

lemma after_fallAsleep (d : Desk σ) (tr : List Happening) (j : Job) :
    (d.after tr).fallAsleep j = (d.fallAsleep j).after tr := by
  simp only [fallAsleep, after_savers, after_note, after_wake, after_remove, after_timer,
    after_clock, after_move]
  split
  · rfl
  · split_ifs <;> first | rfl | contradiction

lemma after_poll (d : Desk σ) (tr : List Happening) (id : Nat) :
    (d.after tr).poll id = (d.poll id).after tr := by
  cases hj : d.job? id with
  | none => simp [poll, hj]
  | some j =>
    cases hstage : j.stage with
    | held => simp [poll, hj, hstage]
    | due => simp [poll, hj, hstage, after_fallAsleep]
    | sleeping wakeAt =>
      by_cases h : wakeAt ≤ d.clock <;> simp [poll, hj, hstage, h, after_wake]

lemma after_load (d : Desk σ) (tr : List Happening) : (d.after tr).load.2 = d.load.2.after tr := by
  have got (outcome : Except Failure (Option String)) (store : σ) :
      { d.after tr with store }.note (.got outcome) =
        ({ d with store }.note (.got outcome)).after tr := after_note { d with store } tr _
  simp only [load, after_store, got]
  split
  · exact after_note ..
  · rfl
  · split
    · rfl
    · exact after_note ..

lemma after_act (d : Desk σ) (tr : List Happening) (a : Act σ) :
    (d.after tr).act a = (d.act a).after tr := by
  cases a with
  | save i state => cases hs : d.savers[i]? <;> simp [act, save, after, hs, setSaver, note]
  | release id =>
    simp only [act, release, after_job?]
    split
    · split <;> rfl
    · rfl
  | poll id => exact after_poll d tr id
  | flush i =>
    cases hs : d.savers[i]? with
    | none => simp [act, flush, hs]
    | some s =>
      have hs' : (d.after tr).savers[i]? = some s := hs
      simp only [act, flush_eq hs, flush_eq hs', after_note]
      exact after_writePending (Desk.setSaver _ i _) tr i none
  | load => exact after_load d tr
  | log r => exact after_note d tr _
  | _ => rfl

/-- Desks that differ only in their logs stay so. -/
lemma silent_act {d d' : Desk σ} (h : d.silent = d'.silent) (a : Act σ) :
    (d.act a).silent = (d'.act a).silent := by
  let blank : Desk σ := { d with trace := [] }
  have hd : blank.after d.trace = d := by simp [blank, after]
  have hd' : blank.after d'.trace = d' := by
    rw [eq_of_silent h]
    simp [blank, after]
  have ht : d.trace.filter (!·.isLogged) = d'.trace.filter (!·.isLogged) := congrArg Desk.trace h
  calc (d.act a).silent = ((blank.after d.trace).act a).silent := by rw [hd]
    _ = ((blank.after d'.trace).act a).silent := by
      rw [after_act, after_act, silent_after, silent_after, ht]
    _ = (d'.act a).silent := by rw [hd']

lemma silent_acts {d d' : Desk σ} (h : d.silent = d'.silent) (as : List (Act σ)) :
    (d.acts as).silent = (d'.acts as).silent := by
  induction as generalizing d d' with
  | nil => exact h
  | cons a as ih => exact ih (silent_act h a)

lemma pollAll_eq_acts (d : Desk σ) : d.pollAll = d.acts (d.jobs.map fun j => .poll j.id) := by
  simp [pollAll, acts, List.foldl_map, act]

lemma silent_pollAll {d d' : Desk σ} (h : d.silent = d'.silent) :
    d.pollAll.silent = d'.pollAll.silent := by
  have hj : d.jobs = d'.jobs := by rw [eq_of_silent h]
  rw [pollAll_eq_acts, pollAll_eq_acts, hj]
  exact silent_acts h _

lemma foldl_logged (d : Desk σ) (rs : List LogRecord) :
    rs.foldl (fun d r => d.note (.logged r)) d = d.acts (rs.map .log) := by
  simp [acts, List.foldl_map, act]

end Desk

end Payments

/-! ### Pages -/

/-- A save of a text that does not read as a state. -/
def PageEvent.isRefused {π : Type} : PageEvent π → Bool
  | .save _ text => !(Payments.State.codec.readText text).isOk
  | _ => false

namespace PaymentsPage

variable {π : Type} [PageHost π]

lemma setUp_eq (p : PaymentsPage π) :
    let loaded := Config.load p.settings
    let desk := (p.desk.acts (loaded.records.map .log))
    let found := desk.act (.outside fun s => (findStore s).2)
    p.step .setUp =
      match (findStore desk.store).1 with
      | .error _ => { p with desk := found, current := none }
      | .ok () => { p with
          desk := found.act (.join loaded.config.window), current := some desk.savers.length } := by
  simp only [step, setUp, Desk.foldl_logged]
  cases (findStore (p.desk.acts ((Config.load p.settings).records.map .log)).store).1 <;> rfl

/-- A page does with its desk what desks do. -/
lemma exists_acts_step (p : PaymentsPage π) (e : PageEvent π) :
    ∃ as, (p.step e).desk = p.desk.acts as := by
  cases e with
  | setUp =>
    let logs : List (Act π) := (Config.load p.settings).records.map .log
    let find : Act π := .outside fun s => (findStore s).2
    rw [setUp_eq]
    split
    · exact ⟨logs ++ [find], by rw [Desk.acts_append]; rfl⟩
    · exact ⟨logs ++ [find, .join _], by rw [Desk.acts_append]; rfl⟩
  | save i text =>
    simp only [step, save]
    split
    · exact ⟨[.log _], rfl⟩
    · rename_i state _
      rw [Desk.pollAll_eq_acts]
      exact ⟨.save i state :: .release p.desk.made :: _, rfl⟩
  | load => exact ⟨[.load], rfl⟩
  | flush i => exact ⟨.flush i :: _, Desk.pollAll_eq_acts _⟩
  | advance ms => exact ⟨.advance ms :: _, Desk.pollAll_eq_acts _⟩
  | outside f => exact ⟨[.outside f], rfl⟩

lemma exists_acts_run (p : PaymentsPage π) (es : List (PageEvent π)) :
    ∃ as, (p.run es).desk = p.desk.acts as := by
  induction es generalizing p with
  | nil => exact ⟨[], rfl⟩
  | cons e es ih =>
    obtain ⟨as, has⟩ := exists_acts_step p e
    obtain ⟨as', has'⟩ := ih (p.step e)
    exact ⟨as ++ as', by rw [Desk.acts_append, ← has]; exact has'⟩

/-- Pages that differ only in their logs. -/
structure Alike (p q : PaymentsPage π) : Prop where
  settings : p.settings = q.settings
  current : p.current = q.current
  desk : p.desk.silent = q.desk.silent

lemma alike_step {p q : PaymentsPage π} (h : Alike p q) (e : PageEvent π) :
    Alike (p.step e) (q.step e) := by
  cases e with
  | setUp =>
    have hlogs := Desk.silent_acts h.desk ((Config.load q.settings).records.map .log)
    have hfound := Desk.silent_act hlogs (.outside fun s => (findStore s).2)
    rw [setUp_eq, setUp_eq, h.settings]
    generalize q.desk.acts ((Config.load q.settings).records.map .log) = d at hlogs hfound
    have hstore : d.store = (p.desk.acts ((Config.load q.settings).records.map .log)).store := by
      rw [Desk.eq_of_silent hlogs]
    have hsavers : d.savers = (p.desk.acts ((Config.load q.settings).records.map .log)).savers := by
      rw [Desk.eq_of_silent hlogs]
    simp only [hstore, hsavers]
    split
    · exact ⟨rfl, rfl, hfound⟩
    · exact ⟨rfl, rfl, Desk.silent_act hfound _⟩
  | save i text =>
    simp only [step, save]
    split
    · exact ⟨h.settings, h.current, by simpa only [Desk.silent_note_logged] using h.desk⟩
    · rename_i state _
      have hmade : p.desk.made = q.desk.made := by rw [Desk.eq_of_silent h.desk]
      rw [hmade]
      exact ⟨h.settings, h.current, Desk.silent_pollAll
        (Desk.silent_acts h.desk [.save i state, .release q.desk.made])⟩
  | load => exact ⟨h.settings, h.current, Desk.silent_act h.desk .load⟩
  | flush i =>
    exact ⟨h.settings, h.current, Desk.silent_pollAll (Desk.silent_act h.desk (.flush i))⟩
  | advance ms =>
    exact ⟨h.settings, h.current, Desk.silent_pollAll (Desk.silent_act h.desk (.advance ms))⟩
  | outside f => exact ⟨h.settings, h.current, Desk.silent_act h.desk (.outside f)⟩

lemma alike_refused {p q : PaymentsPage π} (h : Alike p q) {e : PageEvent π} (he : e.isRefused) :
    Alike (p.step e) q := by
  cases e with
  | save i text =>
    simp only [step, save]
    split
    · exact ⟨h.settings, h.current, (Desk.silent_note_logged ..).trans h.desk⟩
    · rename_i hr
      rw [PageEvent.isRefused, hr] at he
      cases he
  | _ => cases he

lemma alike_run {p q : PaymentsPage π} (h : Alike p q) (es : List (PageEvent π)) :
    Alike (p.run es) (q.run (es.filter (!·.isRefused))) := by
  induction es generalizing p q with
  | nil => exact h
  | cons e es ih =>
    cases he : e.isRefused with
    | true => simpa [he] using ih (alike_refused h he)
    | false => simpa [he] using ih (alike_step h e)

end PaymentsPage

/-- **Only the latest state is written.** In every run of a desk each attempt carries the last
save of its saver, not yet handed over, on the payments item; what a later save replaces before
that is never written. The same holds of every run of a page, and a page that is given texts that
are no states goes on as if it had not been. -/
theorem only_latest_written {σ π : Type} [ItemStore σ] [PageHost π] (store : σ) (timer : Timer)
    (windows : List Nat) (as : List (Act σ)) (settings : Option String) (host : π)
    (es : List (PageEvent π)) :
    let p := (PaymentsPage.new settings host).2
    WritesLatest ((Desk.new store timer windows).acts as).trace ∧
      WritesLatest (p.run es).desk.trace ∧
      (p.run es).Alike (p.run (es.filter (!·.isRefused))) := by
  intro p
  refine ⟨(Desk.kept_acts store timer windows as).orderly.writesLatest, ?_,
    PaymentsPage.alike_run ⟨rfl, rfl, rfl⟩ es⟩
  let blank : PaymentsPage π := ⟨settings, .new host (.clock (some longestTimeout)) [], none⟩
  obtain ⟨as', h⟩ := blank.exists_acts_run (.setUp :: es)
  have hp : (p.run es).desk = blank.desk.acts as' := h
  rw [hp]
  exact (Desk.kept_acts host (.clock (some longestTimeout)) [] as').orderly.writesLatest

end Tipping
