import Tipping.Proofs.Notification.Abreast
import Tipping.Proofs.Notification.Flights

/-!
Secondary failures never steer.

Whether the badge takes its colour, its icons and its text, whether the rewards service takes a
tip and whether the panel flag gets stored is never asked again. Two runs that differ in these
alone stay abreast: each branch for a failure comes back to the next call of the branch without.
-/

namespace Tipping

open Notification

/-- The outcome can make a difference to what comes next. -/
def Request.steers : Request → Bool
  | .set key _ => key ≠ panelOpenKey
  | _ => true

/-- A request that does not steer is a write of the panel flag, and of nothing else. -/
lemma Request.eq_set_panel {r : Request} (h : r.steers = false) :
    ∃ value, r = .set panelOpenKey value := by
  cases r with
  | set key value =>
    have hkey : key = panelOpenKey := by simpa [steers] using h
    exact ⟨value, by rw [hkey]⟩
  | _ => cases h

/-- What is stored under a key once the request was served. -/
def Request.itemAfter (key : String) (item : Option String) : Request → Option String
  | .set k value => if key = k then some value else item
  | .remove k => if key = k then none else item
  | _ => item

instance decidableEqAnswer : (r : Request) → DecidableEq r.Answer
  | .get _ => inferInstanceAs (DecidableEq (Option String))
  | .set _ _ => inferInstanceAs (DecidableEq Unit)
  | .remove _ => inferInstanceAs (DecidableEq Unit)
  | .activeTab => inferInstanceAs (DecidableEq (Option Tab))
  | .rewardsEnabled => inferInstanceAs (DecidableEq Bool)

namespace Notification

/-- What is stored under a key once others have made the change. -/
def Change.itemAfter (key : String) (item : Option String) : Change → Option String
  | .set k value => if key = k then some value else item
  | .unset k => if key = k then none else item
  | _ => item

lemma Change.lookup_apply (c : Change) (m : Memory) (key : String) :
    (c.apply m).items.lookup key = c.itemAfter key (m.items.lookup key) := by
  cases c with
  | set k value => exact Keyed.lookup_insert ..
  | unset k => exact Keyed.lookup_erase ..
  | plan ts failure => exact congrArg (List.lookup key) (m.planAll_eq ..).1
  | outOfOrder part b => exact congrArg (List.lookup key) (m.planAll_eq ..).1
  | _ => rfl

lemma Memory.lookup_answer (r : Request) (m : Memory) (key : String) :
    (answer r m).2.items.lookup key =
      if (answer r m).1.toBool then r.itemAfter key (m.items.lookup key)
      else m.items.lookup key := by
  unfold answer
  split
  · rfl
  · cases r with
    | set k value => exact Keyed.lookup_insert ..
    | remove k => exact Keyed.lookup_erase ..
    | _ => rfl

namespace Session

/-- The two sessions give the flight that the event carries on the same answer, if its request is
one that steers. -/
def AnswerAlike (s s' : Session Memory) (e : Event) : Prop :=
  ∀ stage ∈ s.resumes? e, stage.request.steers →
    (Memory.answer stage.request s.host).1 = (Memory.answer stage.request s'.host).1

instance (s s' : Session Memory) (e : Event) : Decidable (AnswerAlike s s' e) :=
  inferInstanceAs (Decidable (∀ stage ∈ s.resumes? e, stage.request.steers →
    (Memory.answer stage.request s.host).1 = (Memory.answer stage.request s'.host).1))

/-- One event in both runs; or others do something to each host, but the same to every item that
is not the panel flag. -/
inductive Paired : Event → Event → Prop where
  | same (e : Event) : Paired e e
  | outside {c c' : Change} (h : ∀ key ≠ panelOpenKey, ∀ item,
      c.itemAfter key item = c'.itemAfter key item) : Paired (.outside c) (.outside c')

/-- Two runs of the same events in which every request that steers is answered alike. All else
may be refused in one run and taken in the other, call by call. -/
inductive InStep : Session Memory → Session Memory → List Event → List Event → Prop where
  | nil {s s' : Session Memory} : InStep s s' [] []
  | cons {s s' : Session Memory} {e e' : Event} {es es' : List Event} (paired : Paired e e')
      (answers : AnswerAlike s s' e) (rest : InStep (s.step e) (s'.step e') es es') :
      InStep s s' (e :: es) (e' :: es')

/-- The sessions are abreast, and the hosts keep the same items but for the panel flag. -/
structure Alike (s s' : Session Memory) : Prop where
  abreast : Abreast s s'
  items : ∀ key ≠ panelOpenKey, s.host.items.lookup key = s'.host.items.lookup key

lemma items_start (s : Session Memory) (id : Nat) : (s.start id).host.items = s.host.items := by
  simp only [start]
  split
  · split
    · exact follow_items ..
    · rfl
  · rfl

lemma items_receive (s : Session Memory) (message : Message) (rs : List LogRecord) :
    (s.receive message rs).host.items = s.host.items := by
  simp only [receive]
  split <;> rfl

lemma items_settle {s : Session Memory} {f : Flight} {stage : Stage} {o : stage.request.Outcome} :
    (s.settle f stage o).host.items = s.host.items := by
  rw [settle, follow_items]
  rfl

lemma alike_resume {s s' : Session Memory} {id : Nat} (h : Alike s s')
    (ho : AnswerAlike s s' (.resume id)) : Alike (s.step (.resume id)) (s'.step (.resume id)) := by
  have hflight := h.abreast.flight? id
  have hstage : s.stage? id = s'.stage? id := by rw [stage?, stage?, hflight]
  cases hs : s.stage? id with
  | none =>
    rw [step_resume_of_none hs, step_resume_of_none (hstage ▸ hs)]
    exact h
  | some stage =>
    obtain ⟨f, hf, hp⟩ := stage?_eq_some hs
    have ho : stage.request.steers →
        (Memory.answer stage.request s.host).1 = (Memory.answer stage.request s'.host).1 :=
      ho stage (resumes?_resume hf hp)
    have habreast := h.abreast.host (Memory.answer stage.request s.host).2
      (Memory.answer stage.request s'.host).2
    rw [step_resume hf hp, step_resume (hflight ▸ hf) hp]
    refine ⟨habreast.settle f ?_, fun key hkey => ?_⟩
    · cases hr : stage.request.steers with
      | true => rw [ho hr]
      | false =>
        obtain ⟨value, hr⟩ := Request.eq_set_panel hr
        exact deeds_resume_panel hr _ _
    · rw [items_settle, items_settle, Memory.lookup_answer, Memory.lookup_answer,
        h.items key hkey]
      cases hr : stage.request.steers with
      | true => rw [ho hr]
      | false =>
        obtain ⟨value, hr⟩ := Request.eq_set_panel hr
        simp only [hr, Request.itemAfter, if_neg hkey, ite_self]

lemma alike_step {s s' : Session Memory} {e e' : Event} (h : Alike s s') (he : Paired e e')
    (ho : AnswerAlike s s' e) : Alike (s.step e) (s'.step e') := by
  cases he with
  | outside hc =>
    refine ⟨h.abreast.host _ _, fun key hkey => ?_⟩
    simp only [step, Change.lookup_apply, h.items key hkey]
    exact hc key hkey _
  | same =>
    cases e with
    | setUp =>
      refine ⟨h.abreast.setUp, fun key hkey => ?_⟩
      have hitems (s : Session Memory) : (s.step .setUp).host.items = s.host.items :=
        (frame_performAll ..).items
      rw [hitems, hitems, h.items key hkey]
    | hold op => exact ⟨h.abreast.hold op, h.items⟩
    | receive message rs =>
      refine ⟨h.abreast.receive message rs rs, fun key hkey => ?_⟩
      rw [step, step, items_receive, items_receive, h.items key hkey]
    | start id =>
      refine ⟨h.abreast.start id, fun key hkey => ?_⟩
      rw [step, step, items_start, items_start, h.items key hkey]
    | resume id => exact alike_resume h ho
    | drop id => exact ⟨h.abreast.remove id, h.items⟩
    | restart => exact ⟨h.abreast.restart, h.items⟩
    | outside c =>
      refine ⟨h.abreast.host _ _, fun key hkey => ?_⟩
      simp only [step, Change.lookup_apply, h.items key hkey]

/-- Runs in step stay alike, event for event. -/
lemma alike_upTo {s s' : Session Memory} {es es' : List Event} (hrun : InStep s s' es es')
    (h : Alike s s') (n : Nat) : Alike (upTo step s es n) (upTo step s' es' n) := by
  induction hrun generalizing n with
  | nil => simpa [upTo] using h
  | cons paired answers rest ih =>
    cases n with
    | zero => exact h
    | succ n => exact ih (alike_step h paired answers) n

end Session

open Session

/-- **Secondary failures never steer.** Take two runs with the same settings and the same events,
in which the reads, writes and removals of the stored flag and the queries for the tab and for the
rewards are answered alike, while the badge, the rewards service and the store of the panel flag
may refuse a call in one run that they take in the other. Event for event both make the same calls,
come to the same states and give the same replies, and but for the panel flag the same is stored. -/
theorem secondary_failures_never_steer {config : Config} {m m' : Memory} {es es' : List Event}
    (hm : ∀ key ≠ panelOpenKey, m.items.lookup key = m'.items.lookup key)
    (hrun : InStep (.new config m) (.new config m') es es') (n : Nat) :
    let s := upTo Session.step (Session.new config m) es n
    let s' := upTo Session.step (Session.new config m') es' n
    Abreast s s' ∧ s.flag = s'.flag ∧
      ∀ key ≠ panelOpenKey, s.host.items.lookup key = s'.host.items.lookup key := by
  intro s s'
  have hstart : Alike (.new config m) (.new config m') := ⟨⟨rfl, rfl, rfl, rfl, rfl⟩, hm⟩
  have h := alike_upTo hrun hstart n
  exact ⟨h.abreast, h.items dismissedKey (by decide), h.items⟩

/-- The badge refuses its colour and every text, and the panel flag cannot be stored; the
notification is dismissed all the same, and a tip goes out that is then refused. -/
theorem secondary_failures_never_steer_dismissal :
    let config := (Config.load none).config
    let tip : TwitterTip := ⟨"7", "Ann", "ann", "hello"⟩
    let m := Memory.new [(dismissedKey, no)] (some ⟨some .zero⟩)
    let refusals : Change :=
      .plan [.color, .text, .donate, .set (some panelOpenKey)] (some ⟨"out of order", []⟩)
    let rest : List Event := [.setUp, .hold .connect, .hold (.tip tip), .start 0, .start 1,
      .resume 0, .resume 0, .resume 1, .resume 0]
    let es : List Event := .outside (.plan [] none) :: rest
    let es' : List Event := .outside refusals :: rest
    let s := upTo Session.step (Session.new config m) es 10
    let s' := upTo Session.step (Session.new config m) es' 10
    InStep (.new config m) (.new config m) es es' ∧ Abreast s s' ∧ s.flag = s'.flag ∧
      s'.states = [.dismissed] ∧ s'.flag = none ∧ (s.host.shown, s'.host.shown) = (some "", none) ∧
      (s.host.donations, s'.host.donations) = ([(.zero, tip)], []) := by
  intro config tip m refusals rest es es' s s'
  have hpair : Paired (.outside (.plan [] none)) (.outside refusals) :=
    .outside fun _ _ _ => rfl
  have hrun : InStep (.new config m) (.new config m) es es' := by
    refine .cons hpair (by decide +kernel) ?_
    repeat refine .cons (.same _) (by decide +kernel) ?_
    exact .nil
  obtain ⟨habreast, hflag, -⟩ := secondary_failures_never_steer (fun _ _ => rfl) hrun 10
  refine ⟨hrun, habreast, hflag, ?_, ?_, ?_, ?_⟩ <;> decide +kernel

end Notification

end Tipping
