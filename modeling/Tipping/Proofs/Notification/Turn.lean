import Mathlib.Data.List.Induction
import Mathlib.Tactic.Lemma
import Tipping.Notification.Memory

/-!
What one event does to a session on a host in memory.

Between two requests an operation only becomes a state, shows texts and logs. So an event leaves
the states, the stored flag and the badge alone unless it carries on a flight that waits, and
then its turn is one of few: each is named here, with all it changes.
-/

namespace Tipping.Notification

def Action.state? : Action → Option State
  | .become s => some s
  | _ => none

def Action.text? : Action → Option String
  | .notify (.text t) => some t
  | _ => none

/-- The text that the badge was told to show, whether or not it took it. -/
def Happening.text? : Happening → Option String
  | .notified _ (.text t) _ => some t
  | _ => none

def Progress.stage? : Progress → Option Stage
  | .held _ => none
  | .waiting stage => some stage

lemma Memory.notify_eq (n : Notice) (m : Memory) :
    (Notified.notify n m).2 = m ∨ (Notified.notify n m).2 = take n m := by
  simp only [Notified.notify]
  split
  · exact .inl rfl
  · exact .inr rfl

lemma Memory.planAll_eq (m : Memory) (ts : List Target) (failure : Option Failure) :
    (m.planAll ts failure).items = m.items ∧ (m.planAll ts failure).shown = m.shown := by
  induction ts generalizing m with
  | nil => exact ⟨rfl, rfl⟩
  | cons t ts ih => exact ih (m.plan t failure)

lemma Memory.lookup_plan (m : Memory) {t t' : Target} (failure : Option Failure) (h : t' ≠ t) :
    (m.plan t failure).failures.lookup t' = m.failures.lookup t' := by
  have hb : (t' == t) = false := beq_false_of_ne h
  have hfilter (fs : List (Target × Failure)) :
      (fs.filter (·.1 ≠ t)).lookup t' = fs.lookup t' := by
    induction fs with
    | nil => rfl
    | cons p fs ih =>
      obtain ⟨t₁, f⟩ := p
      rw [List.filter_cons, List.lookup_cons]
      split
      · rw [List.lookup_cons, ih]
      · rename_i h₁
        have h₁ : t₁ = t := by simpa using h₁
        rw [ih, h₁, hb]
  cases failure with
  | none => exact hfilter m.failures
  | some f =>
    refine Eq.trans ?_ (hfilter m.failures)
    simp only [plan, Option.map_some, Option.toList_some, List.singleton_append,
      List.lookup_cons, hb]

lemma Memory.lookup_planAll (m : Memory) {ts : List Target} {t : Target}
    (failure : Option Failure) (h : t ∉ ts) :
    (m.planAll ts failure).failures.lookup t = m.failures.lookup t := by
  induction ts generalizing m with
  | nil => rfl
  | cons t' ts ih =>
    rw [List.mem_cons, not_or] at h
    exact (ih (m.plan t' failure) h.2).trans (m.lookup_plan failure h.1)

/-- The event brings no new controller, and nobody else writes to the storage. -/
def Event.isOwn : Event → Bool
  | .restart => false
  | .outside (.set _ _) => false
  | .outside (.unset _) => false
  | _ => true

def Event.resumed? : Event → Option Nat
  | .resume id => some id
  | _ => none

/-- The flight that an event starts or carries on. -/
def Event.carried? : Event → Option Nat
  | .start id => some id
  | .resume id => some id
  | _ => none

/-- The operation that an event opens a flight for. -/
def Event.operation? : Event → Option Operation
  | .hold op => some op
  | .receive message _ => message.operation?
  | _ => none

namespace Session

/-- The stored dismissal flag. -/
def flag (s : Session Memory) : Option String := s.host.items.lookup dismissedKey

/-- All texts that the badge was told to show so far. -/
def texts (s : Session Memory) : List String := s.trace.filterMap Happening.text?

def AcceptsTexts (s : Session Memory) : Prop := s.host.failures.lookup .text = none

/-- The stage that a flight waits at. -/
def stage? (s : Session Memory) (id : Nat) : Option Stage :=
  (s.flight? id).bind fun f => f.progress.stage?

/-- The stage of the flight that an event carries on. -/
def resumes? (s : Session Memory) (e : Event) : Option Stage := e.resumed?.bind s.stage?

lemma stage?_eq_some {s : Session Memory} {id : Nat} {stage : Stage}
    (h : s.stage? id = some stage) :
    ∃ f, s.flight? id = some f ∧ f.progress = .waiting stage := by
  obtain ⟨f, hf, hp⟩ := Option.bind_eq_some_iff.mp h
  refine ⟨f, hf, ?_⟩
  cases hq : f.progress with
  | held op => simp [hq, Progress.stage?] at hp
  | waiting stage' => simpa [hq, Progress.stage?] using hp

lemma resumes?_resume {s : Session Memory} {id : Nat} {f : Flight} {stage : Stage}
    (hf : s.flight? id = some f) (hp : f.progress = .waiting stage) :
    s.resumes? (.resume id) = some stage := by
  simp [resumes?, Event.resumed?, stage?, hf, hp, Progress.stage?]

lemma mem_of_flight? {η : Type} {s : Session η} {id : Nat} {f : Flight}
    (h : s.flight? id = some f) :
    f ∈ s.flights ∧ f.id = id := by
  have hid := List.find?_some h
  exact ⟨List.mem_of_find?_eq_some h, by simpa using hid⟩

/-! ### Actions -/

lemma perform_notify {η : Type} [Notified η] (flight : Option Nat) (c : Nat) (s : Session η)
    (n : Notice) : ∃ rs : List LogRecord, perform flight c s (.notify n) =
      { s with
        host := (Notified.notify n s.host).2
        trace := s.trace ++
          .notified flight n (Notified.notify n s.host).1 :: rs.map .logged } := by
  cases h : (Notified.notify n s.host).1 with
  | ok u => exact ⟨[], by simp [perform, note, h]⟩
  | error f => exact ⟨[complaint (purpose n) f], by simp [perform, note, h]⟩

/-- What actions leave alone. -/
structure Frame (s s' : Session Memory) : Prop where
  config : s'.config = s.config
  flights : s'.flights = s.flights
  opened : s'.opened = s.opened
  items : s'.host.items = s.host.items
  failures : s'.host.failures = s.host.failures

lemma frame_perform (flight : Option Nat) (c : Nat) (s : Session Memory) (a : Action) :
    Frame s (perform flight c s a) := by
  cases a with
  | log r => exact ⟨rfl, rfl, rfl, rfl, rfl⟩
  | become σ => exact ⟨rfl, rfl, rfl, rfl, rfl⟩
  | notify n =>
    obtain ⟨rs, h⟩ := perform_notify flight c s n
    rw [h]
    rcases Memory.notify_eq n s.host with hm | hm
    · exact ⟨rfl, rfl, rfl, congrArg Memory.items hm, congrArg Memory.failures hm⟩
    · refine ⟨rfl, rfl, rfl, ?_, ?_⟩ <;> simp only [hm] <;> cases n <;> rfl

lemma frame_performAll (flight : Option Nat) (c : Nat) (s : Session Memory) (as : List Action) :
    Frame s (s.performAll flight c as) := by
  induction as generalizing s with
  | nil => exact ⟨rfl, rfl, rfl, rfl, rfl⟩
  | cons a as ih =>
    have h := frame_perform flight c s a
    have h' := ih (perform flight c s a)
    exact ⟨h'.config.trans h.config, h'.flights.trans h.flights, h'.opened.trans h.opened,
      h'.items.trans h.items, h'.failures.trans h.failures⟩

lemma performAll_states (flight : Option Nat) (c : Nat) (s : Session Memory) (as : List Action) :
    (s.performAll flight c as).states =
      (as.filterMap Action.state?).foldl (fun ss σ => ss.set c σ) s.states := by
  induction as generalizing s with
  | nil => rfl
  | cons a as ih =>
    have h := ih (perform flight c s a)
    have ha : (perform flight c s a).states =
        (Action.state? a).toList.foldl (fun ss σ => ss.set c σ) s.states := by
      cases a with
      | log r => rfl
      | become σ => rfl
      | notify n =>
        obtain ⟨rs, hn⟩ := perform_notify flight c s n
        rw [hn]
        rfl
    rw [ha] at h
    cases hσ : Action.state? a <;> simpa [performAll, hσ] using h

/-- What actions add to an observation of the trace: what each shows, in their order. -/
lemma performAll_observed {η α : Type} [Notified η] {flight : Option Nat} {c : Nat}
    {p : Happening → Option α} {q : Action → Option α}
    (hlog : ∀ r, p (.logged r) = none ∧ q (.log r) = none)
    (hbecome : ∀ σ, p (.became c σ) = q (.become σ))
    (hnotify : ∀ n o, p (.notified flight n o) = q (.notify n))
    (s : Session η) (as : List Action) :
    (s.performAll flight c as).trace.filterMap p = s.trace.filterMap p ++ as.filterMap q := by
  induction as generalizing s with
  | nil => simp [performAll]
  | cons a as ih =>
    have ha : (perform flight c s a).trace.filterMap p = s.trace.filterMap p ++ (q a).toList := by
      cases a with
      | log r => simp [perform, note, hlog]
      | become σ => cases hq : q (.become σ) <;> simp [perform, note, hbecome, hq]
      | notify n =>
        obtain ⟨rs, hn⟩ := perform_notify flight c s n
        have hl : (rs.map Happening.logged).filterMap p = [] := by
          simp [List.filterMap_map, hlog]
        rw [hn]
        cases hq : q (.notify n) <;> simp [hnotify, hq, hl]
    have h := ih (perform flight c s a)
    rw [ha] at h
    cases hq : q a <;> simpa [performAll, hq] using h

lemma performAll_texts (flight : Option Nat) (c : Nat) (s : Session Memory) (as : List Action) :
    (s.performAll flight c as).texts = s.texts ++ as.filterMap Action.text? :=
  performAll_observed (fun _ => ⟨rfl, rfl⟩) (fun _ => rfl) (fun n _ => by cases n <;> rfl) s as

lemma performAll_shown (flight : Option Nat) (c : Nat) {s : Session Memory} (as : List Action)
    (hs : s.AcceptsTexts) :
    (s.performAll flight c as).host.shown =
      (as.filterMap Action.text?).foldl (fun _ t => some t) s.host.shown := by
  induction as generalizing s with
  | nil => rfl
  | cons a as ih =>
    have hf := (frame_perform flight c s a).failures
    have h := ih (s := perform flight c s a) (by unfold AcceptsTexts; rw [hf]; exact hs)
    have ha : (perform flight c s a).host.shown = (Action.text? a).or s.host.shown := by
      cases a with
      | log r => rfl
      | become σ => rfl
      | notify n =>
        obtain ⟨rs, hn⟩ := perform_notify flight c s n
        rw [hn]
        cases n with
        | text t =>
          have hp : s.host.planned? [.text] = none := by
            simpa [Memory.planned?, AcceptsTexts] using hs
          simp [Notified.notify, Memory.noticeTarget, hp, Memory.take, Action.text?]
        | _ => simp only [Notified.notify]; split <;> rfl
    rw [ha] at h
    cases ht : Action.text? a <;> simpa [performAll, ht] using h

/-! ### Stretches -/

lemma follow_config (s : Session Memory) (f : Flight) (t : Stretch) :
    (s.follow f t).config = s.config := by
  simp only [follow]
  split <;> exact (frame_performAll ..).config

lemma follow_items (s : Session Memory) (f : Flight) (t : Stretch) :
    (s.follow f t).host.items = s.host.items := by
  simp only [follow]
  split <;> exact (frame_performAll ..).items

lemma follow_failures (s : Session Memory) (f : Flight) (t : Stretch) :
    (s.follow f t).host.failures = s.host.failures := by
  simp only [follow]
  split <;> exact (frame_performAll ..).failures

lemma follow_states (s : Session Memory) (f : Flight) (t : Stretch) :
    (s.follow f t).states =
      (t.actions.filterMap Action.state?).foldl (fun ss σ => ss.set f.controller σ) s.states := by
  simp only [follow]
  split <;> exact performAll_states ..

lemma follow_observed {α : Type} {f : Flight} {p : Happening → Option α} {q : Action → Option α}
    (hlog : ∀ r, p (.logged r) = none ∧ q (.log r) = none)
    (hbecome : ∀ σ, p (.became f.controller σ) = q (.become σ))
    (hnotify : ∀ n o, p (.notified (some f.id) n o) = q (.notify n))
    (hfinished : ∀ reply, p (.finished f.id reply) = none)
    (hbegun : ∀ r, p (.begun f.id r) = none) (s : Session Memory) (t : Stretch) :
    (s.follow f t).trace.filterMap p = s.trace.filterMap p ++ t.actions.filterMap q := by
  have h := performAll_observed hlog hbecome hnotify s t.actions
  simp only [follow]
  split <;> simpa [note, remove, move, List.filterMap_cons, hfinished, hbegun] using h

lemma follow_texts (s : Session Memory) (f : Flight) (t : Stretch) :
    (s.follow f t).texts = s.texts ++ t.actions.filterMap Action.text? :=
  follow_observed (fun _ => ⟨rfl, rfl⟩) (fun _ => rfl) (fun n _ => by cases n <;> rfl)
    (fun _ => rfl) (fun _ => rfl) s t

lemma follow_shown {s : Session Memory} (f : Flight) (t : Stretch) (hs : s.AcceptsTexts) :
    (s.follow f t).host.shown =
      (t.actions.filterMap Action.text?).foldl (fun _ t => some t) s.host.shown := by
  simp only [follow]
  split <;> exact performAll_shown _ _ _ hs

lemma mem_flights_follow {s : Session Memory} {f g : Flight} {t : Stretch}
    (h : g ∈ (s.follow f t).flights) :
    g ∈ s.flights ∨ ∃ g₀ ∈ s.flights, ∃ stage, t.next = .awaiting stage ∧ g₀.id = f.id ∧
      g = { g₀ with progress := .waiting stage } := by
  have hf := (frame_performAll (some f.id) f.controller s t.actions).flights
  simp only [follow] at h
  split at h
  · simp only [note, remove, hf, List.mem_filter] at h
    exact .inl h.1
  · rename_i stage hn
    simp only [note, move, hf, List.mem_map] at h
    obtain ⟨g₀, hg, rfl⟩ := h
    split
    · exact .inr ⟨g₀, hg, stage, hn, ‹_›, rfl⟩
    · exact .inl hg

/-! ### Turns -/

/-- What a turn of a controller's flight changes: the state that it becomes and the text shown,
if any, and the flag. -/
structure Changes (s s' : Session Memory) (c : Nat) (σ : Option State) (flag text : Option String) :
    Prop where
  states : s'.states = σ.elim s.states fun σ => s.states.set c σ
  flag : s'.flag = flag
  texts : s'.texts = s.texts ++ text.toList
  shown : s.AcceptsTexts → s'.host.shown = text.or s.host.shown

/-- The turn of a flight that waited at a stage, when its request is answered. -/
inductive Turn (s : Session Memory) (f : Flight) (s' : Session Memory) : Stage → Prop where
  | refused {stage : Stage} (failure : s.host.planned? (Memory.targets stage.request) ≠ none)
      (changes : Changes s s' f.controller none s.flag none) : Turn s f s' stage
  | installed (changes : Changes s s' f.controller (some .fresh) (some no) s.config.badgeText) :
      Turn s f s' .storingFlag
  | recalled (pending : s.flag = some no)
      (changes : Changes s s' f.controller (some .fresh) s.flag s.config.badgeText) :
      Turn s f s' .readingFlagAtStartup
  | acknowledged (settled : s.flag ≠ some no)
      (changes : Changes s s' f.controller (some .acknowledged) s.flag none) :
      Turn s f s' .readingFlagAtStartup
  | dismissed (pending : s.flag = some no)
      (changes : Changes s s' f.controller (some .dismissed) s.flag (some "")) :
      Turn s f s' .readingFlagAtConnect
  | declined (settled : s.flag ≠ some no)
      (changes : Changes s s' f.controller none s.flag none) : Turn s f s' .readingFlagAtConnect
  | removed (changes : Changes s s' f.controller none none none) : Turn s f s' .removingFlag
  | aside {stage : Stage} (h : stage = .openingPanel ∨ stage = .closingPanel ∨
        (∃ tip, stage = .findingTab tip) ∨ stage = .askingRewards)
      (changes : Changes s s' f.controller none s.flag none) : Turn s f s' stage

lemma step_resume {s : Session Memory} {id : Nat} {f : Flight} {stage : Stage}
    (hf : s.flight? id = some f) (hp : f.progress = .waiting stage) :
    s.step (.resume id) =
      { s with host := (Memory.answer stage.request s.host).2 }.settle f stage
        (Memory.answer stage.request s.host).1 := by
  simp [step, resume, hf, hp]

lemma step_resume_of_none {s : Session Memory} {id : Nat} (h : s.stage? id = none) :
    s.step (.resume id) = s := by
  cases hf : s.flight? id with
  | none => simp [step, resume, hf]
  | some f =>
    cases hp : f.progress with
    | held op => simp [step, resume, hf, hp]
    | waiting stage => simp [stage?, hf, hp, Progress.stage?] at h

lemma changes_settle {s : Session Memory} {f : Flight} {stage : Stage} {m : Memory}
    {o : stage.request.Outcome} {σ : Option State} {flag text : Option String}
    (hm : m.shown = s.host.shown) (hf : m.failures = s.host.failures)
    (hflag : m.items.lookup dismissedKey = flag)
    (hσ : (stage.resume s.config o).actions.filterMap Action.state? = σ.toList)
    (ht : (stage.resume s.config o).actions.filterMap Action.text? = text.toList) :
    Changes s ({ s with host := m }.settle f stage o) f.controller σ flag text := by
  refine ⟨?_, ?_, ?_, fun hs => ?_⟩
  · rw [settle, follow_states]
    simp only [note, hσ]
    cases σ <;> rfl
  · rw [Session.flag, settle, follow_items]
    exact hflag
  · rw [settle, follow_texts]
    simp [note, ht, texts, List.filterMap_cons, Happening.text?]
  · rw [settle, follow_shown]
    · simp only [note, ht, hm]
      cases text <;> rfl
    · simpa only [AcceptsTexts, note, hf] using hs

lemma lookup_insert_panel (value : String) (items : List (String × String)) :
    (Keyed.insert panelOpenKey value items).lookup dismissedKey = items.lookup dismissedKey := by
  rw [Keyed.lookup_insert, if_neg (by decide)]

/-- **What an answer leads to.** A flight that waits takes one of the turns. -/
theorem turn_resume {s : Session Memory} {id : Nat} {f : Flight} {stage : Stage}
    (hf : s.flight? id = some f) (hp : f.progress = .waiting stage) :
    Turn s f (s.step (.resume id)) stage := by
  rw [step_resume hf hp]
  cases hr : s.host.planned? (Memory.targets stage.request) with
  | some e =>
    have ha : Memory.answer stage.request s.host = (.error e, s.host) := by
      simp [Memory.answer, hr]
    rw [ha]
    exact .refused (by simp [hr])
      (changes_settle rfl rfl rfl (by cases stage <;> rfl) (by cases stage <;> rfl))
  | none =>
    have ha : Memory.answer stage.request s.host =
        (.ok (Memory.serve stage.request s.host).1, (Memory.serve stage.request s.host).2) := by
      simp [Memory.answer, hr]
    rw [ha]
    cases stage with
    | storingFlag =>
      have hl : (Keyed.insert dismissedKey no s.host.items).lookup dismissedKey = some no := by
        rw [Keyed.lookup_insert, if_pos rfl]
      exact .installed (changes_settle rfl rfl hl rfl rfl)
    | readingFlagAtStartup =>
      by_cases h : s.flag = some no
      · have hq : pending (s.host.items.lookup dismissedKey) = true := decide_eq_true h
        refine .recalled h (changes_settle rfl rfl rfl ?_ ?_) <;>
          simp only [Stage.resume, Memory.serve, Stage.request, hq] <;> rfl
      · have hq : pending (s.host.items.lookup dismissedKey) = false := decide_eq_false h
        refine .acknowledged h (changes_settle rfl rfl rfl ?_ ?_) <;>
          simp only [Stage.resume, Memory.serve, Stage.request, hq] <;> rfl
    | openingPanel =>
      exact .aside (by simp) (changes_settle rfl rfl (lookup_insert_panel yes _) rfl rfl)
    | readingFlagAtConnect =>
      by_cases h : s.flag = some no
      · have hq : pending (s.host.items.lookup dismissedKey) = true := decide_eq_true h
        refine .dismissed h (changes_settle rfl rfl rfl ?_ ?_) <;>
          simp only [Stage.resume, Memory.serve, Stage.request, hq] <;> rfl
      · have hq : pending (s.host.items.lookup dismissedKey) = false := decide_eq_false h
        refine .declined h (changes_settle rfl rfl rfl ?_ ?_) <;>
          simp only [Stage.resume, Memory.serve, Stage.request, hq] <;> rfl
    | removingFlag =>
      have hl : (Keyed.erase dismissedKey s.host.items).lookup dismissedKey = none := by
        rw [Keyed.lookup_erase, if_pos rfl]
      exact .removed (changes_settle rfl rfl hl rfl rfl)
    | closingPanel =>
      exact .aside (by simp) (changes_settle rfl rfl (lookup_insert_panel no _) rfl rfl)
    | findingTab tip =>
      refine .aside (by simp) (changes_settle rfl rfl rfl ?_ ?_) <;>
        simp only [Stage.resume, Memory.serve, Stage.request] <;> split <;> rfl
    | askingRewards => exact .aside (by simp) (changes_settle rfl rfl rfl rfl rfl)

/-! ### Events -/

lemma changes_refl (s : Session Memory) (c : Nat) : Changes s s c none s.flag none :=
  ⟨rfl, rfl, by simp, fun _ => by simp⟩

lemma changes_receive (s : Session Memory) (message : Message) (rs : List LogRecord) (c : Nat) :
    Changes s (s.receive message rs) c none s.flag none := by
  simp only [receive]
  split <;> refine ⟨rfl, rfl, ?_, fun _ => by simp [log, hold, note]⟩ <;>
    simp [texts, log, hold, note, List.filterMap_cons, Happening.text?]

lemma changes_start (s : Session Memory) (id c : Nat) :
    Changes s (s.start id) c none s.flag none := by
  have hσ (op : Operation) : op.start.actions.filterMap Action.state? = [] := by
    cases op <;> simp only [Operation.start] <;> (try split) <;> rfl
  have ht (op : Operation) : op.start.actions.filterMap Action.text? = [] := by
    cases op <;> simp only [Operation.start] <;> (try split) <;> rfl
  simp only [start]
  split
  · rename_i f hf
    split
    · rename_i op hp
      refine ⟨?_, ?_, ?_, fun hs => ?_⟩
      · rw [follow_states, hσ]; rfl
      · rw [flag, follow_items]; rfl
      · rw [follow_texts, ht]; rfl
      · rw [follow_shown _ _ hs, ht]; rfl
    · exact changes_refl s c
  · exact changes_refl s c

lemma changes_setUp (s : Session Memory) (c : Nat) : Changes s s.setUp c none s.flag none := by
  refine ⟨?_, ?_, ?_, fun hs => ?_⟩
  · rw [setUp, performAll_states]; rfl
  · rw [flag, setUp, (frame_performAll ..).items]; rfl
  · rw [setUp, performAll_texts]; rfl
  · rw [setUp, performAll_shown _ _ _ hs]; rfl

lemma changes_outside {s : Session Memory} {c : Change} (h : (Event.outside c).isOwn) (n : Nat) :
    Changes s (s.step (.outside c)) n none s.flag none := by
  have hk : (c.apply s.host).items = s.host.items ∧ (c.apply s.host).shown = s.host.shown := by
    cases c with
    | set key value => cases h
    | unset key => cases h
    | tab t => exact ⟨rfl, rfl⟩
    | enabled b => exact ⟨rfl, rfl⟩
    | plan ts failure => exact Memory.planAll_eq s.host ts failure
    | outOfOrder part b => exact Memory.planAll_eq s.host _ _
  exact ⟨rfl, by rw [flag, step, hk.1]; rfl, by simp [step, texts], fun _ => hk.2⟩

/-- **What an event leads to.** Only the turn of a flight that waits touches the states, the flag
or the badge. -/
theorem step_cases {s : Session Memory} {e : Event} (he : e.isOwn) :
    (∃ id f stage, e = .resume id ∧ s.flight? id = some f ∧ f.progress = .waiting stage ∧
      Turn s f (s.step e) stage) ∨
    s.resumes? e = none ∧ Changes s (s.step e) 0 none s.flag none := by
  cases e with
  | setUp => exact .inr ⟨rfl, changes_setUp s 0⟩
  | hold op =>
    refine .inr ⟨rfl, rfl, rfl, ?_, fun _ => rfl⟩
    simp [step, hold, note, texts, List.filterMap_cons, Happening.text?]
  | receive message rs => exact .inr ⟨rfl, changes_receive s message rs 0⟩
  | start id => exact .inr ⟨rfl, changes_start s id 0⟩
  | resume id =>
    cases h : s.stage? id with
    | none => exact .inr ⟨h, by rw [step_resume_of_none h]; exact changes_refl s 0⟩
    | some stage =>
      obtain ⟨f, hf, hp⟩ := stage?_eq_some h
      exact .inl ⟨id, f, stage, rfl, hf, hp, turn_resume hf hp⟩
  | drop id => exact .inr ⟨rfl, rfl, rfl, by simp [step, remove, texts], fun _ => rfl⟩
  | restart => cases he
  | outside c => exact .inr ⟨rfl, changes_outside he 0⟩

lemma step_config (s : Session Memory) (e : Event) : (s.step e).config = s.config := by
  cases e with
  | setUp => exact (frame_performAll ..).config
  | receive message rs => simp only [step, receive]; split <;> rfl
  | start id =>
    simp only [step, start]
    split
    · split
      · exact follow_config ..
      · rfl
    · rfl
  | resume id =>
    cases h : s.stage? id with
    | none => rw [step_resume_of_none h]
    | some stage =>
      obtain ⟨f, hf, hp⟩ := stage?_eq_some h
      rw [step_resume hf hp, settle, follow_config]
      rfl
  | _ => rfl

lemma step_failures {s : Session Memory} {e : Event} (he : ∀ c, e ≠ .outside c) :
    (s.step e).host.failures = s.host.failures := by
  cases e with
  | setUp => exact (frame_performAll ..).failures
  | receive message rs => simp only [step, receive]; split <;> rfl
  | start id =>
    simp only [step, start]
    split
    · split
      · exact follow_failures ..
      · rfl
    · rfl
  | resume id =>
    cases h : s.stage? id with
    | none => rw [step_resume_of_none h]
    | some stage =>
      obtain ⟨f, hf, hp⟩ := stage?_eq_some h
      rw [step_resume hf hp, settle, follow_failures]
      simp only [note, Memory.answer]
      split
      · rfl
      · cases stage <;> rfl
  | outside c => exact absurd rfl (he c)
  | _ => rfl

/-! ### Flights -/

/-- By the event a flight comes to wait at the stage. -/
inductive Enters (s : Session Memory) : Event → Stage → Prop where
  | start {id : Nat} {f : Flight} {op : Operation} {stage : Stage} (found : s.flight? id = some f)
      (held : f.progress = .held op) (next : op.start.next = .awaiting stage) :
      Enters s (.start id) stage
  | resume {id : Nat} {f : Flight} {before stage : Stage} (found : s.flight? id = some f)
      (waiting : f.progress = .waiting before)
      (next : (before.resume s.config (Memory.answer before.request s.host).1).next =
        .awaiting stage) : Enters s (.resume id) stage

lemma mem_flights_step {s : Session Memory} {e : Event} {g : Flight}
    (h : g ∈ (s.step e).flights) :
    g ∈ s.flights ∨
      (∃ op, e.operation? = some op ∧ g = ⟨s.opened, s.current, .held op⟩) ∨
      ∃ g₀ ∈ s.flights, ∃ stage, s.Enters e stage ∧ e.carried? = some g₀.id ∧
        g = { g₀ with progress := .waiting stage } := by
  cases e with
  | setUp => exact .inl (by rwa [step, setUp, (frame_performAll ..).flights] at h)
  | hold op =>
    rcases List.mem_append.mp h with h | h
    · exact .inl h
    · exact .inr (.inl ⟨op, rfl, by simpa [current] using h⟩)
  | receive message rs =>
    simp only [step, receive] at h
    split at h
    · rename_i op hop
      rcases List.mem_append.mp h with h | h
      · exact .inl h
      · exact .inr (.inl ⟨op, hop, by simpa [current, log] using h⟩)
    · exact .inl h
  | start id =>
    simp only [step, start] at h
    split at h
    · rename_i f hf
      split at h
      · rename_i op hp
        rcases mem_flights_follow h with h | ⟨g₀, hg, stage, hn, hid, rfl⟩
        · exact .inl h
        · have hid : some id = some g₀.id := by rw [hid, (mem_of_flight? hf).2]
          exact .inr (.inr ⟨g₀, hg, stage, .start hf hp hn, hid, rfl⟩)
      · exact .inl h
    · exact .inl h
  | resume id =>
    cases hs : s.stage? id with
    | none => exact .inl (by rwa [step_resume_of_none hs] at h)
    | some before =>
      obtain ⟨f, hf, hp⟩ := stage?_eq_some hs
      rw [step_resume hf hp] at h
      rcases mem_flights_follow h with h | ⟨g₀, hg, stage, hn, hid, rfl⟩
      · exact .inl h
      · have hid : some id = some g₀.id := by rw [hid, (mem_of_flight? hf).2]
        exact .inr (.inr ⟨g₀, hg, stage, .resume hf hp hn, hid, rfl⟩)
  | drop id => exact .inl (List.mem_filter.mp h).1
  | restart => exact .inl h
  | outside c => exact .inl h

/-- A flight comes to wait for the removal only by dismissing. -/
lemma Enters.removing {s : Session Memory} {e : Event} (h : s.Enters e .removingFlag) :
    ∃ id f, e = .resume id ∧ s.flight? id = some f ∧ f.progress = .waiting .readingFlagAtConnect ∧
      Changes s (s.step e) f.controller (some .dismissed) s.flag (some "") := by
  cases h with
  | @start id f op _ hf hp hn =>
    cases op <;> simp only [Operation.start] at hn <;> (try split at hn) <;> cases hn
  | @resume id f before _ hf hp hn =>
    have hb : before = .readingFlagAtConnect := by
      cases before <;> simp only [Stage.resume] at hn <;> (repeat' split at hn) <;> cases hn
      rfl
    subst hb
    refine ⟨id, f, rfl, hf, hp, ?_⟩
    cases hr : s.host.planned? (Memory.targets (.get dismissedKey)) with
    | some err =>
      simp only [Stage.request, Memory.answer, hr, Stage.resume] at hn
      cases hn
    | none =>
      simp only [Stage.request, Memory.answer, hr, Memory.serve, Stage.resume] at hn
      cases turn_resume hf hp with
      | refused failure _ => exact absurd hr failure
      | dismissed _ changes => exact changes
      | declined settled _ =>
        have hq : pending (s.host.items.lookup dismissedKey) = false := decide_eq_false settled
        rw [hq] at hn
        cases hn
      | aside h _ => simp at h

/-! ### One controller -/

/-- The session has one controller, and all flights are its own. -/
structure Alone (s : Session Memory) : Prop where
  states : s.states = [s.state]
  flights : ∀ f ∈ s.flights, f.controller = 0

lemma Turn.changes {s s' : Session Memory} {f : Flight} {stage : Stage} (h : Turn s f s' stage) :
    ∃ σ flag text, Changes s s' f.controller σ flag text := by
  cases h <;> exact ⟨_, _, _, ‹_›⟩

lemma Alone.states_eq {s s' : Session Memory} {c : Nat} {σ : Option State}
    {flag text : Option String} (h : s.Alone) (hc : c = 0) (hch : Changes s s' c σ flag text) :
    s'.states = [σ.getD s.state] := by
  rw [hch.states, hc, h.states]
  cases σ <;> rfl

lemma Alone.state_eq {s s' : Session Memory} {c : Nat} {σ : Option State}
    {flag text : Option String} (h : s.Alone) (hc : c = 0) (hch : Changes s s' c σ flag text) :
    s'.state = σ.getD s.state := by
  simp [state, h.states_eq hc hch]

lemma Alone.controller {s : Session Memory} {id : Nat} {f : Flight} (h : s.Alone)
    (hf : s.flight? id = some f) : f.controller = 0 :=
  h.flights f (mem_of_flight? hf).1

lemma alone_step {s : Session Memory} {e : Event} (he : e.isOwn) (h : s.Alone) :
    (s.step e).Alone := by
  refine ⟨?_, fun f hf => ?_⟩
  · rcases step_cases he with ⟨id, f, stage, -, hf, -, turn⟩ | ⟨-, hch⟩
    · obtain ⟨σ, flag, text, hch⟩ := turn.changes
      rw [h.state_eq (h.controller hf) hch, h.states_eq (h.controller hf) hch]
    · rw [h.state_eq rfl hch, h.states_eq rfl hch]
  · rcases mem_flights_step hf with hf | ⟨op, -, rfl⟩ | ⟨g, hg, stage, -, -, rfl⟩
    · exact h.flights f hf
    · simp [current, h.states]
    · exact h.flights g hg

lemma alone_new (config : Config) (m : Memory) : (Session.new config m).Alone :=
  ⟨rfl, by simp [new]⟩

/-! ### Runs -/

lemma run_concat (s : Session Memory) (es : List Event) (e : Event) :
    s.run (es ++ [e]) = (s.run es).step e := by
  rw [run_append, run_cons, run_nil]

lemma run_config (s : Session Memory) (es : List Event) : (s.run es).config = s.config := by
  induction es generalizing s with
  | nil => rfl
  | cons e es ih => rw [run_cons, ih, step_config]

/-- The events of a run obey a rule, each in the session that it meets. -/
def Obeys (rule : Session Memory → Event → Prop) : Session Memory → List Event → Prop
  | _, [] => True
  | s, e :: es => rule s e ∧ Obeys rule (s.step e) es

instance decidableObeys (rule : Session Memory → Event → Prop) [∀ s e, Decidable (rule s e)] :
    ∀ s es, Decidable (Obeys rule s es)
  | _, [] => .isTrue trivial
  | s, e :: es =>
    have := decidableObeys rule (s.step e) es
    inferInstanceAs (Decidable (rule s e ∧ Obeys rule (s.step e) es))

/-- What every step that obeys the rule keeps, a run keeps. -/
lemma run_inv {rule : Session Memory → Event → Prop} {P : Session Memory → Prop}
    (hstep : ∀ s e, rule s e → P s → P (s.step e)) {s : Session Memory} {es : List Event}
    (hes : s.Obeys rule es) (h : P s) : P (s.run es) := by
  induction es generalizing s with
  | nil => exact h
  | cons e es ih => exact ih hes.2 (hstep s e hes.1 h)

end Session

end Tipping.Notification
