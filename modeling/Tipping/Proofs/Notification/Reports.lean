import Tipping.Proofs.Notification.Follow

/-!
Every failed call is reported, at once and once.

Each handler of a failure makes one record and goes on, and nothing else that a controller does
makes a warning. So the failed calls and the warnings of a run can be told off against each other
in their order. The records that a message brings along are made by whoever read it; they are left
out.
-/

namespace Tipping

open Notification

/-- A call of the host. -/
inductive HostCall where
  | request (r : Request)
  | notice (n : Notice)
  deriving DecidableEq, Repr

/-- What a controller is doing when it makes a request. -/
def Request.purpose : Request → String
  | .get _ => "Failed to read dismissal flag"
  | .set key _ =>
    if key = dismissedKey then "Failed to store dismissal flag" else "Failed to store panel state"
  | .remove _ => "Failed to remove dismissal flag"
  | .activeTab => "Failed to query active tab"
  | .rewardsEnabled => "Rewards status unavailable, replying disabled"

def HostCall.purpose : HostCall → String
  | request r => r.purpose
  | notice n => Notification.purpose n

/-- The record of a failed call: what was being done, and the whole chain of the failure. -/
def HostCall.report (c : HostCall × Failure) : LogRecord := complaint c.1.purpose c.2

namespace Notification

def Happening.failed? : Happening → Option (HostCall × Failure)
  | .answered _ r (.error f) => some (.request r, f)
  | .notified _ n (.error f) => some (.notice n, f)
  | _ => none

def Happening.warning? : Happening → Option LogRecord
  | .logged r => if r.level = .warn then some r else none
  | _ => none

/-- The record is no alarm. -/
def Quiet (r : LogRecord) : Prop := r.level ≠ .warn ∧ r.level ≠ .error

/-- Each failed call is followed by its report, and there is no other alarm. -/
inductive Reported : List Happening → Prop where
  | nil : Reported []
  | quiet {h : Happening} {hs : List Happening} (taken : h.failed? = none)
      (records : ∀ r, h = .logged r → Quiet r) (rest : Reported hs) : Reported (h :: hs)
  | failed {h : Happening} {c : HostCall × Failure} {hs : List Happening}
      (failure : h.failed? = some c) (rest : Reported hs) :
      Reported (h :: .logged (HostCall.report c) :: hs)

lemma Happening.warning?_of_failed {h : Happening} {c : HostCall × Failure}
    (hf : h.failed? = some c) : h.warning? = none ∧ ∀ r, h ≠ .logged r := by
  cases h <;> simp_all [failed?, warning?]

namespace Reported

lemma append {hs hs' : List Happening} (h : Reported hs) (h' : Reported hs') :
    Reported (hs ++ hs') := by
  induction h with
  | nil => exact h'
  | quiet taken records _ ih => exact .quiet taken records ih
  | failed failure _ ih => exact .failed failure ih

lemma singleton {h : Happening} (taken : h.failed? = none)
    (records : ∀ r, h = .logged r → Quiet r) : Reported [h] := .quiet taken records .nil

lemma of_quiet {rs : List LogRecord} (h : ∀ r ∈ rs, Quiet r) :
    Reported (rs.map Happening.logged) := by
  induction rs with
  | nil => exact .nil
  | cons r rs ih =>
    refine .quiet rfl (fun r' he => ?_) (ih fun r' hr => h r' (List.mem_cons_of_mem _ hr))
    cases he
    exact h _ List.mem_cons_self

/-- The warnings are the reports of the failed calls, in their order. -/
lemma warnings_eq {hs : List Happening} (h : Reported hs) :
    hs.filterMap Happening.warning? = (hs.filterMap Happening.failed?).map HostCall.report := by
  induction h with
  | nil => rfl
  | @quiet h hs taken records _ ih =>
    have hw : h.warning? = none := by
      cases h with
      | logged r => exact if_neg (records r rfl).1
      | _ => rfl
    rw [List.filterMap_cons_none taken, List.filterMap_cons_none hw, ih]
  | @failed h c hs failure _ ih =>
    have hreport : (Happening.logged (HostCall.report c)).warning? = some (HostCall.report c) := rfl
    rw [List.filterMap_cons_none (Happening.warning?_of_failed failure).1,
      List.filterMap_cons_some hreport, List.filterMap_cons_some failure,
      List.filterMap_cons_none rfl, List.map_cons, ih]

lemma not_error {hs : List Happening} (h : Reported hs) {r : LogRecord}
    (hr : .logged r ∈ hs) : r.level ≠ .error := by
  induction h with
  | nil => cases hr
  | quiet taken records _ ih =>
    rcases List.mem_cons.mp hr with he | hr
    · exact (records r he.symm).2
    · exact ih hr
  | failed failure _ ih =>
    rcases List.mem_cons.mp hr with he | hr
    · exact absurd he.symm ((Happening.warning?_of_failed failure).2 r)
    rcases List.mem_cons.mp hr with he | hr
    · cases he
      simp [HostCall.report, complaint]
    · exact ih hr

end Reported

/-! ### Stretches -/

lemma quiet_of_start {op : Operation} {r : LogRecord} (h : .log r ∈ op.start.actions) :
    Quiet r := by
  cases op with
  | installed reason =>
    simp only [Operation.start] at h
    split at h <;> simp [await, finish, info, debug] at h <;> simp [h, Quiet]
  | _ => simp [Operation.start, await] at h

lemma quiet_of_answer {config : Config} {stage : Stage} {a : stage.request.Answer} {r : LogRecord}
    (h : .log r ∈ (stage.resume config (.ok a)).actions) : Quiet r := by
  cases stage with
  | storingFlag | openingPanel | removingFlag | closingPanel =>
    cases a
    simp [Stage.resume, finish, await, showBadge] at h
  | _ =>
    simp only [Stage.resume] at h
    repeat' split at h
    all_goals simp [finish, await, showBadge, info, debug] at h
    all_goals simp [h, Quiet]

/-- A failure is reported first thing, and nothing else is done about it. -/
lemma actions_of_failure (config : Config) (stage : Stage) (f : Failure) :
    (stage.resume config (.error f)).actions =
      [.log (HostCall.report (.request stage.request, f))] := by
  cases stage <;> rfl

namespace Session

section Grows

variable {η : Type} [Notified η]

/-- What happened from the one session to the other is all reported. -/
def Tells (s s' : Session η) : Prop := ∃ more, s'.trace = s.trace ++ more ∧ Reported more

omit [Notified η] in
lemma Tells.trans {s s' s'' : Session η} (h : s.Tells s') (h' : s'.Tells s'') : s.Tells s'' := by
  obtain ⟨more, ht, hr⟩ := h
  obtain ⟨more', ht', hr'⟩ := h'
  exact ⟨more ++ more', by rw [ht', ht, List.append_assoc], hr.append hr'⟩

lemma tells_perform (flight : Option Nat) (c : Nat) (s : Session η) {a : Action}
    (ha : ∀ r, a = .log r → Quiet r) : s.Tells (perform flight c s a) := by
  cases a with
  | log r =>
    exact ⟨[.logged r], rfl, .singleton rfl fun r' h => ha r' (by rw [Happening.logged.inj h])⟩
  | become σ => exact ⟨[.became c σ], rfl, .singleton rfl (by simp)⟩
  | notify n =>
    cases ho : (Notified.notify n s.host).1 with
    | ok u =>
      exact ⟨[.notified flight n (.ok ())], by simp [perform, note, ho], .singleton rfl (by simp)⟩
    | error f =>
      exact ⟨[.notified flight n (.error f), .logged (complaint (Notification.purpose n) f)],
        by simp [perform, note, ho], .failed (c := (.notice n, f)) rfl .nil⟩

lemma tells_performAll (flight : Option Nat) (c : Nat) (s : Session η) {as : List Action}
    (has : ∀ r, .log r ∈ as → Quiet r) : s.Tells (s.performAll flight c as) := by
  induction as generalizing s with
  | nil => exact ⟨[], by simp [performAll], .nil⟩
  | cons a as ih =>
    have ha := tells_perform flight c s (a := a) fun r h => has r (by simp [h])
    exact ha.trans (ih _ fun r hr => has r (List.mem_cons_of_mem _ hr))

lemma tells_follow (s : Session η) (f : Flight) {t : Stretch}
    (ht : ∀ r, .log r ∈ t.actions → Quiet r) : s.Tells (s.follow f t) := by
  have hend : Reported [t.next.happening f.id] := by
    cases t.next <;> exact .singleton rfl (by simp [Next.happening])
  exact (tells_performAll (some f.id) f.controller s ht).trans ⟨_, follow_trace s f t, hend⟩

lemma tells_settle (s : Session η) (f : Flight) (stage : Stage) (o : stage.request.Outcome) :
    s.Tells (s.settle f stage o) := by
  cases o with
  | ok a =>
    have hnote : s.Tells (s.note (.answered f.id stage.request (.ok a))) :=
      ⟨_, rfl, .singleton rfl (by simp)⟩
    exact hnote.trans (tells_follow _ f fun r => quiet_of_answer)
  | error e =>
    -- the failure and its report only go together
    have hend : Reported [(stage.resume s.config (.error e)).next.happening f.id] := by
      cases (stage.resume s.config (.error e)).next <;>
        exact .singleton rfl (by simp [Next.happening])
    have hreq : (Happening.answered f.id stage.request (.error e)).failed? =
        some (.request stage.request, e) := rfl
    refine ⟨_, ?_, .failed hreq hend⟩
    rw [settle, follow_trace, actions_of_failure]
    simp [performAll, perform, note]

end Grows

/-! ### Runs -/

/-- The records that come with a message. -/
def brought : Event → List LogRecord
  | .receive _ records => records
  | _ => []

/-- All that an event makes happen, but for the records that came with a message. -/
def made (s : Session Memory) (e : Event) : List Happening :=
  (s.step e).trace.drop (s.trace.length + (brought e).length)

/-- All that a run makes happen, but for the records that came with its messages. -/
def madeIn : Session Memory → List Event → List Happening
  | _, [] => []
  | s, e :: es => s.made e ++ madeIn (s.step e) es

lemma tells_step (s : Session Memory) (e : Event) : (s.log (brought e)).Tells (s.step e) := by
  have hnil : s.log [] = s := by simp [log]
  have of {s' : Session Memory} (he : brought e = []) (h : s.Tells s') :
      (s.log (brought e)).Tells s' := by
    rwa [he, hnil]
  have refl : s.Tells s := ⟨[], by simp, .nil⟩
  cases e with
  | setUp => exact of rfl (tells_performAll _ _ _ (by simp [Notification.setUp]))
  | hold op => exact of rfl ⟨_, rfl, .singleton rfl (by simp)⟩
  | receive message rs =>
    have hrem : (s.log rs).Tells ((s.log rs).log message.remarks) := by
      refine ⟨_, rfl, .of_quiet fun r hr => ?_⟩
      cases message <;> simp [Message.remarks] at hr
      simp [hr, Quiet]
    have hlog : (s.log rs).log message.remarks = s.log (rs ++ message.remarks) := by simp [log]
    rw [hlog] at hrem
    simp only [step, receive]
    split
    · exact hrem.trans ⟨_, rfl, .singleton rfl (by simp)⟩
    · exact hrem
  | start id =>
    simp only [step, start]
    split
    · split
      · exact of rfl (tells_follow _ _ fun r => quiet_of_start)
      · exact of rfl refl
    · exact of rfl refl
  | resume id =>
    cases h : s.stage? id with
    | none =>
      rw [step_resume_of_none h]
      exact of rfl refl
    | some stage =>
      obtain ⟨f, hf, hp⟩ := stage?_eq_some h
      rw [step_resume hf hp]
      obtain ⟨more, ht, hr⟩ := tells_settle
        { s with host := (Memory.answer stage.request s.host).2 } f stage
        (Memory.answer stage.request s.host).1
      exact of rfl ⟨more, ht, hr⟩
  | _ => exact of rfl ⟨[], by simp [step, remove, restart], .nil⟩

/-- What an event leaves of the trace: what stood there, the records that came with a message,
and what the controllers made happen. -/
lemma trace_step (s : Session Memory) (e : Event) :
    (s.step e).trace = s.trace ++ (brought e).map .logged ++ s.made e := by
  obtain ⟨more, ht, -⟩ := tells_step s e
  have hdrop : s.made e = more := by
    rw [made, ht]
    exact List.drop_left' (by simp [log])
  rw [ht, hdrop]
  rfl

lemma reported_made (s : Session Memory) (e : Event) : Reported (s.made e) := by
  obtain ⟨more, ht, hr⟩ := tells_step s e
  rw [trace_step] at ht
  rwa [List.append_cancel_left ht]

lemma reported_madeIn (s : Session Memory) (es : List Event) : Reported (s.madeIn es) := by
  induction es generalizing s with
  | nil => exact .nil
  | cons e es ih => exact (s.reported_made e).append (ih _)

end Session

end Notification

end Tipping
