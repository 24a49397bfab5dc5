import Tipping.Proofs.Message
import Tipping.Proofs.Notification.Flights

/-!
Tips are routed exactly once.

A tip is forwarded in the turn in which its own query is answered, to the tab of that answer, and
that turn is the last of its flight. A call is known by the number of its flight, and the number
tells the message; so tips that are in flight together are neither mixed up nor doubled. What the
host has in the end are the donations of those calls that it took.
-/

namespace Tipping.Notification

open Session

/-! ### Messages -/

/-- A message as it arrives: as JSON text, or as a value. -/
inductive Arrival where
  | text (s : String)
  | value (v : Json) (sorted : v.Sorted)

namespace Arrival

/-- What the message says, if it is JSON at all. -/
def value? : Arrival → Option Json
  | text s => (Json.ofText s).toOption
  | value v _ => some v

def read : Arrival → Message × List LogRecord
  | text s => Message.ofText s
  | value v _ => Message.parse v

/-- The message asks for that tip. -/
def Asks (a : Arrival) (tip : TwitterTip) : Prop := ∃ v, a.value? = some v ∧ v.AsksTip tip

lemma read_eq_donate_iff {a : Arrival} {tip : TwitterTip} :
    a.read.1 = .donate tip ↔ a.Asks tip := by
  cases a with
  | text s =>
    cases h : Json.ofText s with
    | error b => simp [read, Message.ofText, Asks, value?, h, Except.toOption]
    | ok v =>
      have hv := Message.parse_eq_donate_iff (Json.sorted_of_ofText h) (t := tip)
      simpa [read, Message.ofText, Asks, value?, h, Except.toOption] using hv
  | value v sorted => simpa [read, Asks, value?] using Message.parse_eq_donate_iff sorted

end Arrival

lemma operation?_eq_tip {message : Message} {tip : TwitterTip} :
    message.operation? = some (.tip tip) ↔ message = .donate tip := by
  cases message <;> simp [Message.operation?]

/-- Only a message asks for the operation. -/
def Operation.isRequested : Operation → Bool
  | tip _ => true
  | askRewards => true
  | _ => false

lemma isRequested_of_message {message : Message} {op : Operation}
    (h : message.operation? = some op) : op.isRequested := by
  cases message <;> cases h <;> rfl

/-- The event brings no message and none of the work that only messages bring. -/
def Event.isBystander : Event → Bool
  | .receive .. => false
  | .hold op => !op.isRequested
  | _ => true

/-- A message that arrives, or anything else that can happen. -/
inductive Signal where
  | message (a : Arrival)
  | other (e : Event) (bystander : e.isBystander)

def Signal.event : Signal → Event
  | message a => .receive a.read.1 a.read.2
  | other e _ => e

lemma Signal.eq_message {signal : Signal} {op : Operation} (h : signal.event.operation? = some op)
    (hop : op.isRequested) : ∃ a, signal = .message a ∧ a.read.1.operation? = some op := by
  cases signal with
  | message a => exact ⟨a, rfl, h⟩
  | other e bystander =>
    cases e with
    | hold op' =>
      cases h
      simp [Event.isBystander, hop] at bystander
    | receive message rs => cases bystander
    | _ => cases h

/-! ### Calls -/

/-- What an action forwards. -/
def Action.forward? : Action → Option (Signed32 × TwitterTip)
  | .notify (.donate tab tip) => some (tab, tip)
  | _ => none

/-- The action has nothing to do with the notification. -/
def Action.isAside : Action → Bool
  | .log _ => true
  | .notify (.donate ..) => true
  | _ => false

/-- What the badge was told, whether or not it took it. -/
def Happening.badge? : Happening → Option Notice
  | .notified _ (.donate ..) _ => none
  | .notified _ n _ => some n
  | _ => none

/-- A call to donate: by which flight, for which tab and which tip. -/
def Happening.call? : Happening → Option (Option Nat × Signed32 × TwitterTip)
  | .notified flight (.donate tab tip) _ => some (flight, tab, tip)
  | _ => none

/-- A call to donate that the host took. -/
def Happening.donation? : Happening → Option (Signed32 × TwitterTip)
  | .notified _ (.donate tab tip) (.ok ()) => some (tab, tip)
  | _ => none

namespace Session

/-- All calls to donate so far, whether or not they were taken. -/
def calls (s : Session Memory) : List (Option Nat × Signed32 × TwitterTip) :=
  s.trace.filterMap Happening.call?

/-- All that the badge was told so far. -/
def told (s : Session Memory) : List Notice := s.trace.filterMap Happening.badge?

/-- The event answers the query of that flight with a tab that has a number. -/
structure Forwards (s : Session Memory) (e : Event) (id : Nat) (tab : Signed32)
    (tip : TwitterTip) : Prop where
  resumed : e = .resume id
  waiting : s.stage? id = some (.findingTab tip)
  answered : (Memory.answer .activeTab s.host).1 = .ok (some ⟨some tab⟩)

lemma Forwards.unique {s : Session Memory} {e : Event} {id id' : Nat} {tab tab' : Signed32}
    {tip tip' : TwitterTip} (h : Forwards s e id tab tip) (h' : Forwards s e id' tab' tip') :
    id = id' ∧ tab = tab' ∧ tip = tip' := by
  cases h.resumed.symm.trans h'.resumed
  cases h.waiting.symm.trans h'.waiting
  cases h.answered.symm.trans h'.answered
  exact ⟨rfl, rfl, rfl⟩

lemma calls_performAll (flight : Option Nat) (c : Nat) (s : Session Memory) (as : List Action) :
    (s.performAll flight c as).calls =
      s.calls ++ as.filterMap fun a => a.forward?.map (flight, ·) :=
  performAll_observed (fun _ => ⟨rfl, rfl⟩) (fun _ => rfl) (fun n _ => by cases n <;> rfl) s as

lemma calls_follow (s : Session Memory) (f : Flight) (t : Stretch) :
    (s.follow f t).calls = s.calls ++ t.actions.filterMap fun a => a.forward?.map (some f.id, ·) :=
  follow_observed (fun _ => ⟨rfl, rfl⟩) (fun _ => rfl) (fun n _ => by cases n <;> rfl)
    (fun _ => rfl) (fun _ => rfl) s t

lemma calls_start (s : Session Memory) (id : Nat) : (s.start id).calls = s.calls := by
  have hop (op : Operation) (flight : Option Nat) :
      op.start.actions.filterMap (fun a => a.forward?.map (flight, ·)) = [] := by
    cases op <;> simp only [Operation.start] <;> (try split) <;> rfl
  simp only [start]
  split
  · split
    · rw [calls_follow, hop, List.append_nil]
    · rfl
  · rfl

/-- A request other than a tip's query has an answer that forwards nothing. -/
lemma forward?_resume {config : Config} {stage : Stage} (h : ∀ tip, stage ≠ .findingTab tip)
    (o : stage.request.Outcome) (flight : Option Nat) :
    (stage.resume config o).actions.filterMap (fun a => a.forward?.map (flight, ·)) = [] := by
  cases stage with
  | findingTab tip => exact absurd rfl (h tip)
  | _ => simp only [Stage.resume]; (repeat' split) <;> rfl

lemma calls_settle (s : Session Memory) (f : Flight) (stage : Stage) (o : stage.request.Outcome) :
    (s.settle f stage o).calls = s.calls ++ (stage.resume s.config o).actions.filterMap
      fun a => a.forward?.map (some f.id, ·) := by
  rw [settle, calls_follow]
  simp [calls, note, List.filterMap_cons, Happening.call?]

/-- What answering a query of a tip forwards. -/
lemma calls_findingTab {s : Session Memory} {id : Nat} {tip : TwitterTip}
    (h : s.stage? id = some (.findingTab tip)) :
    (∃ tab, (Memory.answer .activeTab s.host).1 = .ok (some ⟨some tab⟩) ∧
      (s.step (.resume id)).calls = s.calls ++ [(some id, tab, tip)]) ∨
    (∀ tab, (Memory.answer .activeTab s.host).1 ≠ .ok (some ⟨some tab⟩)) ∧
      (s.step (.resume id)).calls = s.calls := by
  obtain ⟨f, hf, hp⟩ := stage?_eq_some h
  rw [step_resume hf hp, calls_settle, (mem_of_flight? hf).2]
  have hcalls (m : Memory) : ({ s with host := m } : Session Memory).calls = s.calls := rfl
  rw [hcalls]
  simp only [Stage.request]
  rcases (Memory.answer .activeTab s.host).1 with f | _ | ⟨_ | tab⟩
  · exact .inr ⟨by simp, by simp [Stage.resume, finish, complain, Action.forward?]⟩
  · exact .inr ⟨by simp, by simp [Stage.resume, finish, debug, Action.forward?]⟩
  · exact .inr ⟨by simp, by simp [Stage.resume, finish, debug, Action.forward?]⟩
  · exact .inl ⟨tab, rfl, by simp [Stage.resume, finish, info, Action.forward?]⟩

/-- **What an event forwards**: the tip whose query it answers, if any. -/
theorem calls_step (s : Session Memory) (e : Event) :
    (∃ id tab tip, Forwards s e id tab tip ∧
      (s.step e).calls = s.calls ++ [(some id, tab, tip)]) ∨
    (∀ id tab tip, ¬ Forwards s e id tab tip) ∧ (s.step e).calls = s.calls := by
  by_cases hr : ∃ id, e = .resume id
  · obtain ⟨id, rfl⟩ := hr
    have other (h : ∀ tip, s.stage? id ≠ some (.findingTab tip)) (id' : Nat) (tab : Signed32)
        (tip : TwitterTip) : ¬ Forwards s (.resume id) id' tab tip := by
      intro hf
      cases hf.resumed
      exact h tip hf.waiting
    cases hs : s.stage? id with
    | none => exact .inr ⟨other (by simp [hs]), by rw [step_resume_of_none hs]⟩
    | some stage =>
      by_cases htip : ∃ tip, stage = .findingTab tip
      · obtain ⟨tip, rfl⟩ := htip
        rcases calls_findingTab hs with ⟨tab, ha, hc⟩ | ⟨ha, hc⟩
        · exact .inl ⟨id, tab, tip, ⟨rfl, hs, ha⟩, hc⟩
        · exact .inr ⟨fun id' tab tip' h => ha tab h.answered, hc⟩
      · rw [not_exists] at htip
        obtain ⟨f, hf, hp⟩ := stage?_eq_some hs
        refine .inr ⟨other fun tip h => htip tip (Option.some.inj (hs.symm.trans h)), ?_⟩
        rw [step_resume hf hp, calls_settle, forward?_resume htip, List.append_nil]
        rfl
  · rw [not_exists] at hr
    refine .inr ⟨fun id tab tip h => hr id h.resumed, ?_⟩
    cases e with
    | setUp => simp [step, setUp, calls_performAll, Notification.setUp, Action.forward?]
    | hold op => simp [step, hold, note, calls, List.filterMap_cons, Happening.call?]
    | receive message rs =>
      simp only [step, receive]
      split <;> simp [hold, log, note, calls, List.filterMap_cons, Happening.call?]
    | start id => exact calls_start s id
    | resume id => exact absurd rfl (hr id)
    | _ => rfl

/-- A flight that forwards is over with that. -/
lemma Forwards.not_mem_ids {s : Session Memory} {e : Event} {id : Nat} {tab : Signed32}
    {tip : TwitterTip} (h : Forwards s e id tab tip) : id ∉ (s.step e).ids := by
  obtain ⟨f, hf, hp⟩ := stage?_eq_some h.waiting
  have hfinal {o : Request.activeTab.Outcome} (ho : o = .ok (some ⟨some tab⟩)) :
      ((Stage.findingTab tip).resume s.config o).next = .finished none := by
    subst ho
    rfl
  rw [h.resumed, step_resume hf hp, settle, ← (mem_of_flight? hf).2]
  exact not_mem_ids_follow _ _ (hfinal h.answered)

lemma Forwards.mem_ids {s : Session Memory} {e : Event} {id : Nat} {tab : Signed32}
    {tip : TwitterTip} (h : Forwards s e id tab tip) : id ∈ s.ids := by
  obtain ⟨f, hf, -⟩ := stage?_eq_some h.waiting
  obtain ⟨hmem, rfl⟩ := mem_of_flight? hf
  exact List.mem_map_of_mem hmem

/-- No flight has called twice, and none that has called is under way. -/
structure Spent (s : Session Memory) : Prop where
  numbered : Numbered s
  once : (s.calls.map Prod.fst).Nodup
  finished : ∀ c ∈ s.calls, ∃ id < s.opened, c.1 = some id ∧ id ∉ s.ids

lemma spent_new (config : Config) (m : Memory) : Spent (.new config m) :=
  ⟨numbered_new config m, List.nodup_nil, by simp [calls, new]⟩

lemma spent_step {s : Session Memory} (e : Event) (h : Spent s) : Spent (s.step e) := by
  have old {c : Option Nat × Signed32 × TwitterTip} (hc : c ∈ s.calls) :
      ∃ id < (s.step e).opened, c.1 = some id ∧ id ∉ (s.step e).ids := by
    obtain ⟨id, hlt, hid, hgone⟩ := h.finished c hc
    obtain ⟨hlt', hgone'⟩ := not_mem_ids_step hlt hgone
    exact ⟨id, hlt', hid, hgone'⟩
  rcases calls_step s e with ⟨id, tab, tip, hf, hc⟩ | ⟨-, hc⟩
  · refine ⟨numbered_step e h.numbered, ?_, ?_⟩
    · rw [hc, List.map_append, List.map_singleton]
      refine h.once.append (List.nodup_singleton _) (List.disjoint_singleton.mpr fun hin => ?_)
      -- the flight was under way, so it had not called before
      obtain ⟨c, hcs, hfst⟩ := List.mem_map.mp hin
      obtain ⟨id', -, hid', hgone⟩ := h.finished c hcs
      cases hfst.symm.trans hid'
      exact hgone hf.mem_ids
    · intro c hcs
      rw [hc, List.mem_append, List.mem_singleton] at hcs
      rcases hcs with hcs | rfl
      · exact old hcs
      · have hlt := h.numbered.below id hf.mem_ids
        exact ⟨id, by rw [opened_step]; omega, rfl, hf.not_mem_ids⟩
  · exact ⟨numbered_step e h.numbered, hc ▸ h.once, fun c hcs => old (hc ▸ hcs)⟩

/-- What has been called is what has been forwarded. -/
lemma mem_calls_upTo {s : Session Memory} (hs : s.calls = []) (es : List Event) (n : Nat)
    {flight : Option Nat} {tab : Signed32} {tip : TwitterTip} :
    (flight, tab, tip) ∈ (upTo step s es n).calls ↔ ∃ j < n, ∃ e id, es[j]? = some e ∧
      flight = some id ∧ Forwards (upTo step s es j) e id tab tip := by
  induction n with
  | zero => simp [upTo_zero, hs]
  | succ n ih =>
    have split_last {P : Nat → Prop} : (∃ j < n + 1, P j) ↔ (∃ j < n, P j) ∨ P n := by
      constructor
      · rintro ⟨j, hj, h⟩
        rcases Nat.lt_succ_iff_lt_or_eq.mp hj with hj | rfl
        · exact .inl ⟨j, hj, h⟩
        · exact .inr h
      · rintro (⟨j, hj, h⟩ | h)
        · exact ⟨j, by omega, h⟩
        · exact ⟨n, by omega, h⟩
    rw [split_last, ← ih]
    cases he : es[n]? with
    | none => simp [upTo_succ_of_none s he]
    | some e =>
      rw [upTo_succ s he]
      rcases calls_step (upTo step s es n) e with ⟨id, tab', tip', hf, hc⟩ | ⟨hno, hc⟩
      · rw [hc, List.mem_append, List.mem_singleton]
        refine or_congr_right ⟨?_, ?_⟩
        · rintro ⟨⟩
          exact ⟨e, id, rfl, rfl, hf⟩
        · rintro ⟨_, id', ⟨⟩, rfl, hf'⟩
          obtain ⟨rfl, rfl, rfl⟩ := hf.unique hf'
          rfl
      · rw [hc]
        refine (or_iff_left ?_).symm
        rintro ⟨_, id, ⟨⟩, -, hf⟩
        exact hno _ _ _ hf

/-! ### Donations -/

section Donations

/-- Beyond the first ones the host has the donations that the trace says it took. -/
def Donated (first : List (Signed32 × TwitterTip)) (s : Session Memory) : Prop :=
  s.host.donations = first ++ s.trace.filterMap Happening.donation?

/-- The host has one donation more exactly if it took one. -/
lemma donations_notify (flight : Option Nat) (n : Notice) (m : Memory) :
    (Notified.notify n m).2.donations = m.donations ++
      (Happening.notified flight n (Notified.notify n m).1).donation?.toList := by
  simp only [Notified.notify]
  split <;> cases n <;> simp [Memory.take, Happening.donation?]

lemma donations_answer (r : Request) (m : Memory) :
    (Memory.answer r m).2.donations = m.donations := by
  simp only [Memory.answer]
  split
  · rfl
  · cases r <;> rfl

lemma donations_planAll (m : Memory) (ts : List Target) (failure : Option Failure) :
    (m.planAll ts failure).donations = m.donations :=
  List.foldlRecOn (motive := fun m' : Memory => m'.donations = m.donations) ts _ rfl
    fun _ h _ _ => h

lemma donations_apply (m : Memory) (c : Change) : (c.apply m).donations = m.donations := by
  cases c with
  | plan ts failure => exact donations_planAll m ts failure
  | outOfOrder part b => exact donations_planAll m _ _
  | _ => rfl

lemma donations_logged (rs : List LogRecord) :
    (rs.map Happening.logged).filterMap Happening.donation? = [] := by
  simp [List.filterMap_map, Happening.donation?]

variable {first : List (Signed32 × TwitterTip)} {s : Session Memory}

lemma Donated.note (hs : Donated first s) {h : Happening} (hh : h.donation? = none) :
    Donated first (s.note h) := by
  simpa [Donated, Session.note, List.filterMap_append, hh] using hs

lemma Donated.log (hs : Donated first s) (rs : List LogRecord) : Donated first (s.log rs) := by
  rw [Donated, Session.log, List.filterMap_append, donations_logged, List.append_nil]
  exact hs

lemma Donated.perform (hs : Donated first s) (flight : Option Nat) (c : Nat) (a : Action) :
    Donated first (perform flight c s a) := by
  cases a with
  | log r => exact hs.note rfl
  | become state => exact hs.note (s := { s with states := s.states.set c state }) rfl
  | notify n =>
    obtain ⟨rs, h⟩ := perform_notify flight c s n
    rw [h, Donated, donations_notify flight, hs, List.filterMap_append, List.filterMap_cons,
      donations_logged, List.append_assoc]
    cases (Happening.notified flight n (Notified.notify n s.host).1).donation? <;> rfl

lemma Donated.performAll (hs : Donated first s) (flight : Option Nat) (c : Nat)
    (as : List Action) : Donated first (s.performAll flight c as) :=
  List.foldlRecOn as _ hs fun _ h a _ => h.perform flight c a

lemma Donated.follow (hs : Donated first s) (f : Flight) (t : Stretch) :
    Donated first (s.follow f t) := by
  have h := hs.performAll (some f.id) f.controller t.actions
  simp only [Session.follow]
  split
  · exact h.note (s := Session.remove _ f.id) rfl
  · exact h.note (s := Session.move _ f.id _) rfl

lemma Donated.hold (hs : Donated first s) (op : Operation) : Donated first (s.hold op) :=
  hs.note (s := { s with flights := _, opened := _ }) rfl

lemma Donated.step (hs : Donated first s) (e : Event) : Donated first (s.step e) := by
  cases e with
  | setUp => exact hs.performAll none _ _
  | hold op => exact hs.hold op
  | receive message rs =>
    simp only [Session.step, receive]
    split
    · exact (hs.log _).hold _
    · exact hs.log _
  | start id =>
    simp only [Session.step, Session.start]
    split
    · split
      · exact hs.follow ..
      · exact hs
    · exact hs
  | resume id =>
    cases hstage : s.stage? id with
    | none => rwa [step_resume_of_none hstage]
    | some stage =>
      obtain ⟨f, hf, hp⟩ := stage?_eq_some hstage
      have hanswered : Donated first { s with host := (Memory.answer stage.request s.host).2 } :=
        (donations_answer ..).trans hs
      rw [step_resume hf hp]
      exact (hanswered.note rfl).follow f _
  | outside c => exact (donations_apply ..).trans hs
  | _ => exact hs

/-- **The donations can be told from the trace**: beyond the first ones the host has those that it
took, in their order. -/
theorem donations_run (config : Config) (m : Memory) (es : List Event) :
    let s := (Session.new config m).run es
    s.host.donations = m.donations ++ s.trace.filterMap Happening.donation? := by
  have hnew : Donated m.donations (.new config m) := (List.append_nil _).symm
  exact List.foldlRecOn es Session.step hnew fun _ h e _ => h.step e

end Donations

/-! ### What messages leave alone -/

/-- The notification and the storage are as they were, and the badge has not been told anything. -/
structure Untouched (s s' : Session Memory) : Prop where
  states : s'.states = s.states
  items : s'.host.items = s.host.items
  color : s'.host.color = s.host.color
  icons : s'.host.icons = s.host.icons
  shown : s'.host.shown = s.host.shown
  told : s'.told = s.told

lemma Untouched.refl (s : Session Memory) : Untouched s s := ⟨rfl, rfl, rfl, rfl, rfl, rfl⟩

lemma Untouched.trans {s s' s'' : Session Memory} (h : Untouched s s') (h' : Untouched s' s'') :
    Untouched s s'' :=
  ⟨h'.states.trans h.states, h'.items.trans h.items, h'.color.trans h.color,
    h'.icons.trans h.icons, h'.shown.trans h.shown, h'.told.trans h.told⟩

lemma untouched_perform (flight : Option Nat) (c : Nat) (s : Session Memory) {a : Action}
    (h : a.isAside) : Untouched s (perform flight c s a) := by
  cases a with
  | log r => exact ⟨rfl, rfl, rfl, rfl, rfl, by simp [told, perform, note, Happening.badge?]⟩
  | become σ => cases h
  | notify n =>
    cases n with
    | donate tab tip =>
      obtain ⟨rs, hn⟩ := perform_notify flight c s (.donate tab tip)
      rw [hn]
      rcases Memory.notify_eq (.donate tab tip) s.host with hm | hm <;> rw [hm] <;>
        exact ⟨rfl, rfl, rfl, rfl, rfl, by simp [told, Happening.badge?]⟩
    | _ => cases h

lemma untouched_performAll (flight : Option Nat) (c : Nat) (s : Session Memory) {as : List Action}
    (h : ∀ a ∈ as, a.isAside) : Untouched s (s.performAll flight c as) := by
  induction as generalizing s with
  | nil => exact .refl s
  | cons a as ih =>
    rw [List.forall_mem_cons] at h
    exact (untouched_perform flight c s h.1).trans (ih (perform flight c s a) h.2)

lemma untouched_follow (s : Session Memory) (f : Flight) {t : Stretch}
    (h : ∀ a ∈ t.actions, a.isAside) : Untouched s (s.follow f t) := by
  refine (untouched_performAll (some f.id) f.controller s h).trans ?_
  simp only [follow]
  split <;>
    exact ⟨rfl, rfl, rfl, rfl, rfl, by simp [told, note, remove, move, Happening.badge?]⟩

lemma untouched_receive (s : Session Memory) (message : Message) (rs : List LogRecord) :
    Untouched s (s.step (.receive message rs)) := by
  simp only [step, receive]
  split <;>
    exact ⟨rfl, rfl, rfl, rfl, rfl, by simp [told, log, hold, note, Happening.badge?]⟩

lemma untouched_start {s : Session Memory} {id : Nat}
    (h : ∀ f, s.flight? id = some f → f.progress.operation.isRequested) :
    Untouched s (s.step (.start id)) := by
  simp only [step, start]
  split
  · rename_i f hf
    split
    · rename_i op hp
      have hop : op.isRequested := by simpa [hp, Progress.operation] using h f hf
      refine untouched_follow s f ?_
      cases op with
      | tip tip => exact List.forall_mem_nil _
      | askRewards => exact List.forall_mem_nil _
      | _ => cases hop
    · exact .refl s
  · exact .refl s

/-- The answer to a message's request is logged or forwarded, and that is all. -/
lemma isAside_resume {config : Config} {stage : Stage} (h : stage.operation.isRequested)
    (o : stage.request.Outcome) : ∀ a ∈ (stage.resume config o).actions, a.isAside := by
  cases stage with
  | findingTab tip =>
    simp only [Stage.resume]
    (repeat' split) <;> simp [finish, info, debug, complain, Action.isAside]
  | askingRewards =>
    simp only [Stage.resume]
    split <;> simp [complain, Action.isAside]
  | _ => cases h

lemma answer_requested {stage : Stage} (h : stage.operation.isRequested) (m : Memory) :
    (Memory.answer stage.request m).2 = m := by
  cases stage with
  | findingTab tip => simp only [Stage.request, Memory.answer]; split <;> rfl
  | askingRewards => simp only [Stage.request, Memory.answer]; split <;> rfl
  | _ => cases h

lemma untouched_resume {s : Session Memory} {id : Nat}
    (h : ∀ f, s.flight? id = some f → f.progress.operation.isRequested) :
    Untouched s (s.step (.resume id)) := by
  cases hs : s.stage? id with
  | none =>
    rw [step_resume_of_none hs]
    exact .refl s
  | some stage =>
    obtain ⟨f, hf, hp⟩ := stage?_eq_some hs
    have hop : stage.operation.isRequested := by simpa [hp, Progress.operation] using h f hf
    rw [step_resume hf hp, answer_requested hop]
    refine Untouched.trans ?_ (untouched_follow _ f (isAside_resume hop _))
    exact ⟨rfl, rfl, rfl, rfl, rfl, by simp [told, note, Happening.badge?]⟩

/-- What happens to a flight that only a message asks for leaves the notification alone. -/
lemma untouched_step {s : Session Memory} {e : Event} {id : Nat}
    (he : e.carried? = some id ∨ e = .drop id)
    (h : ∀ f, s.flight? id = some f → f.progress.operation.isRequested) :
    Untouched s (s.step e) := by
  rcases he with he | rfl
  · cases e with
    | start id' => cases he; exact untouched_start h
    | resume id' => cases he; exact untouched_resume h
    | _ => cases he
  · exact ⟨rfl, rfl, rfl, rfl, rfl, rfl⟩

end Session

/-! ### Routes -/

section Routes

variable (s : Nat → Session Memory) (signals : List Signal)

/-- The `k`-th signal is a message that asks for the tip of this call, and the query of its own
flight was answered with the tab of this call. -/
structure Routed (k : Nat) (call : Option Nat × Signed32 × TwitterTip) : Prop where
  flight : call.1 = some (s k).opened
  asked : ∃ a, signals[k]? = some (.message a) ∧ a.Asks call.2.2
  answered : ∃ j > k, signals[j]?.map Signal.event = some (.resume (s k).opened) ∧
    ((s j).stage? (s k).opened).map Stage.request = some .activeTab ∧
    (Memory.answer .activeTab (s j).host).1 = .ok (some ⟨some call.2.1⟩)

/-- The `n`-th signal is a message, or it is about the flight that a message opened. -/
inductive OfMessage (n : Nat) : Prop where
  | arrival (a : Arrival) (now : signals[n]? = some (.message a))
  | work (k : Nat) (a : Arrival) (e : Event) (before : k < n)
      (message : signals[k]? = some (.message a)) (opens : a.read.1.operation?.isSome)
      (now : signals[n]?.map Signal.event = some e)
      (own : e.carried? = some (s k).opened ∨ e = .drop (s k).opened)

end Routes

section Histories

variable {config : Config} {m : Memory} {signals : List Signal}

/-- A new session after its first `n` signals. -/
def Session.heard (config : Config) (m : Memory) (signals : List Signal) (n : Nat) :
    Session Memory :=
  upTo step (Session.new config m) (signals.map Signal.event) n

lemma event_of_message {k : Nat} {a : Arrival} (h : signals[k]? = some (.message a)) :
    (signals.map Signal.event)[k]? = some (.receive a.read.1 a.read.2) := by
  simp [h, Signal.event]

/-- A flight that only a message asks for was opened by one, for what it says. -/
lemma exists_message {n : Nat} {f : Flight} (hf : f ∈ (heard config m signals n).flights)
    (hop : f.progress.operation.isRequested) : ∃ k < n, ∃ a, signals[k]? = some (.message a) ∧
      a.read.1.operation? = some f.progress.operation ∧
      (heard config m signals k).opened = f.id := by
  obtain ⟨k, hk, e, he, hread, hid⟩ := exists_origin rfl (numbered_new config m) _ n f hf
  rw [List.getElem?_map, Option.map_eq_some_iff] at he
  obtain ⟨signal, hsignal, rfl⟩ := he
  obtain ⟨a, rfl, ha⟩ := signal.eq_message hread hop
  exact ⟨k, hk, a, hsignal, ha, hid⟩

/-- A message is told by the number of its flight. -/
lemma message_eq {k k' : Nat} {a a' : Arrival} (h : signals[k]? = some (.message a))
    (hop : a.read.1.operation?.isSome) (h' : signals[k']? = some (.message a'))
    (hop' : a'.read.1.operation?.isSome)
    (hid : (heard config m signals k).opened = (heard config m signals k').opened) : k = k' :=
  eq_of_opened_eq (event_of_message h) hop (event_of_message h') hop' hid

lemma Arrival.Asks.opens {a : Arrival} {tip : TwitterTip} (h : a.Asks tip) :
    a.read.1.operation? = some (.tip tip) :=
  operation?_eq_tip.mpr (read_eq_donate_iff.mpr h)

/-- The flight that a message opened is at what the message asks for. -/
lemma operation_of_message {n k : Nat} {a : Arrival} {f : Flight}
    (h : signals[k]? = some (.message a)) (hop : a.read.1.operation?.isSome)
    (hf : f ∈ (heard config m signals n).flights)
    (hid : f.id = (heard config m signals k).opened) :
    a.read.1.operation? = some f.progress.operation := by
  obtain ⟨k', -, e, he, hread, hid'⟩ := exists_origin rfl (numbered_new config m) _ n f hf
  have hk : k = k' := eq_of_opened_eq (event_of_message h) hop he (by simp [hread])
    (hid.symm.trans hid'.symm)
  subst hk
  cases (event_of_message h).symm.trans he
  exact hread

/-- What is forwarded is routed. -/
lemma Routed.of_forwards {j id : Nat} {e : Event} {tab : Signed32} {tip : TwitterTip}
    (he : (signals.map Signal.event)[j]? = some e)
    (h : Forwards (heard config m signals j) e id tab tip) :
    ∃ k, Routed (heard config m signals) signals k (some id, tab, tip) := by
  obtain ⟨f, hf, hp⟩ := stage?_eq_some h.waiting
  obtain ⟨hmem, hid⟩ := mem_of_flight? hf
  have hop : f.progress.operation = .tip tip := by rw [hp]; rfl
  obtain ⟨k, hk, a, ha, hread, hopened⟩ := exists_message hmem (by rw [hop]; rfl)
  rw [hop, operation?_eq_tip, Arrival.read_eq_donate_iff] at hread
  rw [hid] at hopened
  refine ⟨k, congrArg some hopened.symm, ⟨a, ha, hread⟩, j, hk, ?_, ?_, h.answered⟩
  · rw [← List.getElem?_map, he, h.resumed, hopened]
  · rw [hopened, h.waiting]
    rfl

/-- What is routed is forwarded. -/
lemma Routed.forwards {k : Nat} {call : Option Nat × Signed32 × TwitterTip}
    (h : Routed (heard config m signals) signals k call) :
    ∃ j > k, (signals.map Signal.event)[j]? =
        some (.resume (heard config m signals k).opened) ∧
      Forwards (heard config m signals j) (.resume (heard config m signals k).opened)
        (heard config m signals k).opened call.2.1 call.2.2 := by
  obtain ⟨a, ha, hasks⟩ := h.asked
  obtain ⟨j, hj, he, hq, hanswer⟩ := h.answered
  refine ⟨j, hj, by rwa [List.getElem?_map], rfl, ?_, hanswer⟩
  obtain ⟨stage, hstage, hrequest⟩ := Option.map_eq_some_iff.mp hq
  obtain ⟨f, hf, hp⟩ := stage?_eq_some hstage
  obtain ⟨hmem, hid⟩ := mem_of_flight? hf
  have hop := operation_of_message ha (by simp [hasks.opens]) hmem hid
  rw [hasks.opens, hp] at hop
  -- the only stage that asks for the tab is the query of a tip
  cases stage with
  | findingTab tip =>
    cases hop
    exact hstage
  | _ => cases hrequest

lemma OfMessage.untouched {n : Nat} (h : OfMessage (heard config m signals) signals n) :
    Untouched (heard config m signals n) (heard config m signals (n + 1)) := by
  cases h with
  | arrival a now =>
    rw [heard, heard, upTo_succ _ (event_of_message now)]
    exact untouched_receive ..
  | work k a e before message opens now own =>
    rw [← List.getElem?_map] at now
    rw [heard, heard, upTo_succ _ now]
    refine untouched_step own fun f hf => ?_
    obtain ⟨hmem, hid⟩ := mem_of_flight? hf
    exact isRequested_of_message (operation_of_message message opens hmem hid)

/-- **Tips are routed exactly once.** Whatever else happens meanwhile, the calls to donate and the
messages that ask for a tip and whose query is answered with a numbered tab are matched one to
one, and each call has the tab and the tip of its own message. No message touches the notification,
the badge or the storage.

The calls are read off the trace, where each stands with what the host said to it
(`perform_notify`); those that it took are its donations (`donations_run`). -/
theorem tips_routed_once (config : Config) (m : Memory) (signals : List Signal) :
    let s := heard config m signals
    let calls := (s signals.length).calls
    (calls.map Prod.fst).Nodup ∧ (∀ call ∈ calls, ∃! k, Routed s signals k call) ∧
      (∀ k call, Routed s signals k call →
        call ∈ calls ∧ ∀ call', Routed s signals k call' → call' = call) ∧
      ∀ n, OfMessage s signals n → Untouched (s n) (s (n + 1)) := by
  intro s calls
  have hspent : Spent (s signals.length) :=
    upTo_inv (fun _ e => spent_step e) (spent_new config m) _ _
  have hnodup : (calls.map Prod.fst).Nodup := hspent.once
  have hcalled {k : Nat} {call : Option Nat × Signed32 × TwitterTip}
      (h : Routed s signals k call) : call ∈ calls := by
    obtain ⟨j, -, he, hf⟩ := h.forwards
    obtain ⟨hlt, -⟩ := List.getElem?_eq_some_iff.mp he
    rw [List.length_map] at hlt
    exact (mem_calls_upTo rfl _ _).mpr ⟨j, hlt, _, _, he, h.flight, hf⟩
  refine ⟨hnodup, fun call hcall => ?_, fun k call h => ⟨hcalled h, fun call' h' => ?_⟩,
    fun n h => h.untouched⟩
  · obtain ⟨flight, tab, tip⟩ := call
    obtain ⟨j, -, e, id, he, rfl, hf⟩ := (mem_calls_upTo rfl _ _).mp hcall
    obtain ⟨k, hk⟩ := Routed.of_forwards he hf
    refine ⟨k, hk, fun k' hk' => ?_⟩
    obtain ⟨a, ha, hasks⟩ := hk.asked
    obtain ⟨a', ha', hasks'⟩ := hk'.asked
    exact message_eq ha' (by simp [hasks'.opens]) ha (by simp [hasks.opens])
      (Option.some.inj (hk'.flight.symm.trans hk.flight))
  · exact List.inj_on_of_nodup_map hnodup (hcalled h') (hcalled h)
      (h'.flight.trans h.flight.symm)

/-- Two tips are in flight while the tab changes, and their queries are answered the other way
round. -/
theorem tips_routed_once_crosswise :
    let ann : TwitterTip := ⟨"7", "Ann", "ann", "hello"⟩
    let bob : TwitterTip := ⟨"8", "Bob", "bob", "bye"⟩
    let tab : Signed32 := ⟨1, by decide⟩
    let tab' : Signed32 := ⟨2, by decide⟩
    let signals : List Signal :=
      [.message (.value (.ofTip ann) (Json.sorted_ofTip ann)),
        .message (.value (.ofTip bob) (Json.sorted_ofTip bob)),
        .other (.start 0) rfl, .other (.start 1) rfl, .other (.resume 1) rfl,
        .other (.outside (.tab (some ⟨some tab'⟩))) rfl, .other (.resume 0) rfl]
    let s := heard (Config.load none).config (.new [] (some ⟨some tab⟩)) signals
    (s 7).calls = [(some 1, tab, bob), (some 0, tab', ann)] ∧
      (∃! k, Routed s signals k (some 1, tab, bob)) ∧
      (∃! k, Routed s signals k (some 0, tab', ann)) ∧ Untouched (s 1) (s 2) := by
  intro ann bob tab tab' signals s
  have hcalls : (s 7).calls = [(some 1, tab, bob), (some 0, tab', ann)] := by decide +kernel
  obtain ⟨-, hroutes, -, hquiet⟩ := tips_routed_once (Config.load none).config
    (.new [] (some ⟨some tab⟩)) signals
  refine ⟨hcalls, hroutes _ ?_, hroutes _ ?_, hquiet 1 (.arrival _ rfl)⟩
  · rw [show (heard _ _ signals signals.length).calls = _ from hcalls]
    exact List.mem_cons_self
  · rw [show (heard _ _ signals signals.length).calls = _ from hcalls]
    exact List.mem_cons_of_mem _ List.mem_cons_self

end Histories

end Tipping.Notification
