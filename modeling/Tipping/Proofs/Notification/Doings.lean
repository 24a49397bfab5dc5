import Tipping.Proofs.Notification.Flights
import Tipping.Proofs.Notification.Follow
import Tipping.Proofs.Notification.Restart
import Tipping.Proofs.Notification.Secondary

/-!
What each flight has done.

However flights interleave, what one of them has done follows the way of its own operation: so far
as it has come, it was opened, asked its requests and got their answers in the order of its stages.
All that can happen to several controllers on one host comes down to four moves, and each of them
adds to what one flight has done, or to none.
-/

namespace Tipping

open Notification

/-- The request is to write the item or to remove it. -/
def Request.changes (key : String) : Request → Bool
  | .set k _ => k = key
  | .remove k => k = key
  | _ => false

namespace Notification

/-- What a flight does, whether or not its notices are taken. -/
inductive Doing where
  | opened (op : Operation)
  | begun (request : Request)
  | answered (request : Request) (outcome : request.Outcome)
  | told (notice : Notice)
  | finished (reply : Option RewardsReply)

/-- What a flight does by this, if it is about that flight. -/
def Happening.doing? (id : Nat) : Happening → Option Doing
  | .opened flight op => if flight = id then some (.opened op) else none
  | .begun flight r => if flight = id then some (.begun r) else none
  | .answered flight r o => if flight = id then some (.answered r o) else none
  | .notified flight n _ => if flight = some id then some (.told n) else none
  | .finished flight reply => if flight = id then some (.finished reply) else none
  | .became .. => none
  | .logged _ => none

/-- The write or the removal of the item that this says was carried out, and for which flight. -/
def Happening.change? (key : String) : Happening → Option (Nat × Request)
  | .answered flight r o => if o.toBool ∧ r.changes key then some (flight, r) else none
  | _ => none

def Next.doing : Next → Doing
  | .finished reply => .finished reply
  | .awaiting stage => .begun stage.request

def Stretch.doings (t : Stretch) : List Doing :=
  (t.actions.filterMap Action.notice?).map .told ++ [t.next.doing]

lemma not_opened_doings (t : Stretch) (op : Operation) : .opened op ∉ t.doings := by
  cases h : t.next <;> simp [Stretch.doings, Next.doing, h]

/-- All that a flight has done by the time it is there. -/
inductive Path (config : Config) : Progress → List Doing → Prop where
  | held (op : Operation) : Path config (.held op) [.opened op]
  | started {op : Operation} {stage : Stage} {ds : List Doing} (before : Path config (.held op) ds)
      (next : op.start.next = .awaiting stage) :
      Path config (.waiting stage) (ds ++ op.start.doings)
  | resumed {stage stage' : Stage} {ds : List Doing} {o : stage.request.Outcome}
      (before : Path config (.waiting stage) ds)
      (next : (stage.resume config o).next = .awaiting stage') :
      Path config (.waiting stage')
        (ds ++ .answered stage.request o :: (stage.resume config o).doings)

/-- A flight was opened once, for the operation that it is still at. -/
lemma Path.opened_iff {config : Config} {p : Progress} {ds : List Doing} (h : Path config p ds)
    {op : Operation} : .opened op ∈ ds ↔ op = p.operation := by
  induction h with
  | held op' => simp [Progress.operation]
  | @started op' stage ds _ next ih =>
    have hop : stage.operation = op' := operation_of_start next
    simp [ih, not_opened_doings, Progress.operation, hop]
  | @resumed stage stage' ds o _ next ih =>
    have hop : stage'.operation = stage.operation := operation_of_resume next
    simp [ih, not_opened_doings, Progress.operation, hop]

lemma Path.eq_of_held {config : Config} {op : Operation} {ds : List Doing}
    (h : Path config (.held op) ds) : ds = [.opened op] := by
  cases h
  rfl

/-- A connection writes the panel flag before anything else. -/
lemma Path.eq_of_openingPanel {config : Config} {ds : List Doing}
    (h : Path config (.waiting .openingPanel) ds) :
    ds = [.opened .connect, .begun (.set panelOpenKey yes)] := by
  cases h with
  | @started op _ ds before next =>
    rw [before.eq_of_held]
    cases operation_of_start next
    rfl
  | @resumed stage _ ds o _ next =>
    cases stage <;> simp only [Stage.resume] at next <;> (repeat' split at next) <;> cases next

lemma Path.eq_of_readingFlag {config : Config} {ds : List Doing}
    (h : Path config (.waiting .readingFlagAtConnect) ds) :
    ∃ o, ds = [.opened .connect, .begun (.set panelOpenKey yes),
      .answered (.set panelOpenKey yes) o, .begun (.get dismissedKey)] := by
  cases h with
  | @started op _ ds _ next =>
    cases op <;> simp only [Operation.start] at next <;> (try split at next) <;> cases next
  | @resumed stage _ ds o before next =>
    cases stage with
    | openingPanel =>
      rw [before.eq_of_openingPanel]
      rcases o with f | u <;> exact ⟨_, rfl⟩
    | _ => simp only [Stage.resume] at next; (repeat' split at next) <;> cases next

/-- What a connection has done when its removal of the flag is out. -/
def dismissal (o : (Request.set panelOpenKey yes).Outcome) : List Doing :=
  [.opened .connect, .begun (.set panelOpenKey yes), .answered (.set panelOpenKey yes) o,
    .begun (.get dismissedKey), .answered (.get dismissedKey) (.ok (some no)), .told (.text ""),
    .begun (.remove dismissedKey)]

/-- A removal is out only after the flag was read as pending. -/
lemma Path.eq_dismissal {config : Config} {ds : List Doing}
    (h : Path config (.waiting .removingFlag) ds) : ∃ o, ds = dismissal o := by
  cases h with
  | @started op _ ds _ next =>
    cases op <;> simp only [Operation.start] at next <;> (try split at next) <;> cases next
  | @resumed stage _ ds o before next =>
    cases stage with
    | readingFlagAtConnect =>
      obtain ⟨o', rfl⟩ := before.eq_of_readingFlag
      cases o with
      | error f => cases next
      | ok flag =>
        change Option String at flag
        by_cases hflag : flag = some no
        · subst hflag
          exact ⟨o', rfl⟩
        · have hq : pending flag = false := decide_eq_false hflag
          simp only [Stage.resume, hq] at next
          cases next
    | _ => simp only [Stage.resume] at next; (repeat' split at next) <;> cases next

/-- A removal of the item was asked for, or answered. -/
def Removes (key : String) (ds : List Doing) : Prop :=
  .begun (.remove key) ∈ ds ∨ ∃ o, .answered (.remove key) o ∈ ds

lemma removes_append {key : String} {ds ds' : List Doing} :
    Removes key (ds ++ ds') ↔ Removes key ds ∨ Removes key ds' := by
  simp only [Removes, List.mem_append, exists_or]
  tauto

/-- Between two requests a removal is only asked for. -/
lemma removes_doings {key : String} {t : Stretch} :
    Removes key t.doings ↔ ∃ stage, t.next = .awaiting stage ∧ stage.request = .remove key := by
  cases h : t.next <;> simp [Removes, Stretch.doings, Next.doing, h, eq_comm]

lemma eq_removingFlag {stage : Stage} {key : String} (h : stage.request = .remove key) :
    stage = .removingFlag ∧ key = dismissedKey := by
  cases stage <;> cases h
  exact ⟨rfl, rfl⟩

/-- Only a flight that waits for its removal has asked for one, and none has got an answer. -/
lemma Path.of_removes {config : Config} {p : Progress} {ds : List Doing} (h : Path config p ds)
    {key : String} (hr : Removes key ds) :
    p = .waiting .removingFlag ∧ key = dismissedKey := by
  induction h with
  | held op => simp [Removes] at hr
  | started before next =>
    rw [before.eq_of_held, removes_append, removes_doings, next] at hr
    rcases hr with hr | ⟨stage, hstage, hr⟩
    · simp [Removes] at hr
    · cases hstage
      obtain ⟨rfl, hkey⟩ := eq_removingFlag hr
      exact ⟨rfl, hkey⟩
  | @resumed stage stage' ds o before next ih =>
    -- the answer to a removal leads to no further stage
    have hstage : stage ≠ .removingFlag := by
      rintro rfl
      cases o <;> cases next
    have hnone : ¬ Removes key [.answered stage.request o] := by
      rintro (hr | ⟨o', hr⟩)
      · simp at hr
      · simp only [List.mem_singleton, Doing.answered.injEq] at hr
        exact hstage (eq_removingFlag hr.1.symm).1
    rw [← List.singleton_append, removes_append, removes_append, removes_doings, next] at hr
    rcases hr with hr | hr | ⟨stage'', hs, hr⟩
    · exact absurd (Progress.waiting.inj (ih hr).1) hstage
    · exact absurd hr hnone
    · cases hs
      obtain ⟨rfl, hkey⟩ := eq_removingFlag hr
      exact ⟨rfl, hkey⟩

namespace Session

section Observed

variable {η : Type}

/-- What a flight has done so far. -/
def doings (s : Session η) (id : Nat) : List Doing := s.trace.filterMap (·.doing? id)

variable [Notified η]

lemma doings_performAll (flight : Option Nat) (c : Nat) (s : Session η) (as : List Action)
    (id : Nat) : (s.performAll flight c as).doings id = s.doings id ++
      if flight = some id then (as.filterMap Action.notice?).map .told else [] := by
  have h : (s.performAll flight c as).trace.filterMap (·.doing? id) = s.doings id ++
      as.filterMap fun a => if flight = some id then a.notice?.map .told else none :=
    performAll_observed (fun r => by simp [Happening.doing?, Action.notice?])
    (fun σ => by simp [Happening.doing?, Action.notice?])
    (fun n o => by simp [Happening.doing?, Action.notice?]) s as
  rw [doings, h]
  split <;> simp [List.map_filterMap]

lemma doings_follow (s : Session η) (f : Flight) (t : Stretch) (id : Nat) :
    (s.follow f t).doings id = s.doings id ++ if f.id = id then t.doings else [] := by
  have h := doings_performAll (some f.id) f.controller s t.actions id
  rw [doings, follow_trace, List.filterMap_append, ← doings, h]
  by_cases hid : f.id = id
  · cases hn : t.next <;>
      simp [hid, Stretch.doings, Next.doing, Next.happening, Happening.doing?, hn]
  · cases hn : t.next <;> simp [hid, Next.happening, Happening.doing?]

end Observed

/-! ### Moves -/

/-- The writes and removals of the item that were carried out, each with its flight. -/
def changed (s : Session Memory) (key : String) : List (Nat × Request) :=
  s.trace.filterMap (·.change? key)

lemma changed_performAll (flight : Option Nat) (c : Nat) (s : Session Memory) (as : List Action)
    (key : String) : (s.performAll flight c as).changed key = s.changed key := by
  have h : (s.performAll flight c as).changed key = s.changed key ++ as.filterMap fun _ => none :=
    performAll_observed (fun _ => ⟨rfl, rfl⟩) (fun _ => rfl) (fun _ _ => rfl) s as
  rw [h, List.filterMap_eq_nil_iff.mpr fun _ _ => rfl, List.append_nil]

lemma changed_follow (s : Session Memory) (f : Flight) (t : Stretch) (key : String) :
    (s.follow f t).changed key = s.changed key := by
  have h := changed_performAll (some f.id) f.controller s t.actions key
  rw [changed, follow_trace, List.filterMap_append, ← changed, h]
  cases t.next <;> simp [Next.happening, Happening.change?]

lemma doings_log (s : Session Memory) (rs : List LogRecord) (id : Nat) :
    (s.log rs).doings id = s.doings id := by
  simp [doings, log, List.filterMap_map, Happening.doing?]

lemma changed_log (s : Session Memory) (rs : List LogRecord) (key : String) :
    (s.log rs).changed key = s.changed key := by
  simp [changed, log, List.filterMap_map, Happening.change?]

lemma log_nil (s : Session Memory) : s.log [] = s := by simp [log]

lemma doings_call (s : Session Memory) (c : Nat) (op : Operation) (id : Nat) :
    (s.call c op).doings id = s.doings id ++ if s.opened = id then [.opened op] else [] := by
  by_cases h : s.opened = id <;> simp [doings, call, note, Happening.doing?, h]

lemma changed_call (s : Session Memory) (c : Nat) (op : Operation) (key : String) :
    (s.call c op).changed key = s.changed key := by
  simp [changed, call, note, Happening.change?]

lemma doings_settle (s : Session Memory) (f : Flight) (stage : Stage) (o : stage.request.Outcome)
    (id : Nat) : (s.settle f stage o).doings id = s.doings id ++
      if f.id = id then .answered stage.request o :: (stage.resume s.config o).doings else [] := by
  rw [settle, doings_follow]
  by_cases h : f.id = id <;> simp [doings, note, Happening.doing?, h]

lemma changed_settle (s : Session Memory) (f : Flight) (stage : Stage)
    (o : stage.request.Outcome) (key : String) :
    (s.settle f stage o).changed key = s.changed key ++
      if o.toBool ∧ stage.request.changes key then [(f.id, stage.request)] else [] := by
  rw [settle, changed_follow]
  by_cases h : o.toBool ∧ stage.request.changes key <;>
    simp [changed, note, Happening.change?, h]

/-- The ways in which a session on a host of its own goes on. -/
inductive Move (s : Session Memory) : Session Memory → Prop where
  | aside {s' : Session Memory} (config : s'.config = s.config)
      (flights : ∀ id f, s'.flight? id = some f → s.flight? id = some f)
      (opened : s'.opened = s.opened) (items : s'.host.items = s.host.items)
      (doings : ∀ id, s'.doings id = s.doings id)
      (changed : ∀ key, s'.changed key = s.changed key) : Move s s'
  | opened (rs : List LogRecord) (controller : Nat) (op : Operation) :
      Move s ((s.log rs).call controller op)
  | started {f : Flight} {op : Operation} (found : s.flight? f.id = some f)
      (held : f.progress = .held op) : Move s (s.follow f op.start)
  | answered {f : Flight} {stage : Stage} (found : s.flight? f.id = some f)
      (waiting : f.progress = .waiting stage) :
      Move s ({ s with host := (Memory.answer stage.request s.host).2 }.settle f stage
        (Memory.answer stage.request s.host).1)

/-- What can happen, short of others writing to the storage, is one of the moves. -/
lemma move_step (s : Session Memory) {e : Event} (he : e.sparesItems) : Move s (s.step e) := by
  have still {s' : Session Memory} (hc : s'.config = s.config)
      (hf : ∀ id f, s'.flight? id = some f → s.flight? id = some f) (ho : s'.opened = s.opened)
      (hi : s'.host.items = s.host.items) (ht : s'.trace = s.trace) : Move s s' :=
    .aside hc hf ho hi (fun id => by rw [doings, ht, doings])
      (fun key => by rw [changed, ht, changed])
  have refl : Move s s := still rfl (fun _ _ h => h) rfl rfl rfl
  cases e with
  | setUp =>
    have h := frame_performAll none s.current s (Notification.setUp s.config)
    refine .aside h.config (fun id f hf => ?_) h.opened h.items (fun id => ?_) fun key => ?_
    · rwa [step, setUp, flight?, h.flights] at hf
    · rw [step, setUp, doings_performAll]
      simp
    · rw [step, setUp, changed_performAll]
  | hold op =>
    have h := Move.opened (s := s) [] s.current op
    rwa [log_nil] at h
  | receive message rs =>
    simp only [step, receive]
    split
    · exact .opened _ _ _
    · exact .aside rfl (fun _ _ h => h) rfl rfl (doings_log s _) (changed_log s _)
  | start id =>
    simp only [step, start]
    split
    · rename_i f hf
      split
      · exact .started ((mem_of_flight? hf).2 ▸ hf) ‹_›
      · exact refl
    · exact refl
  | resume id =>
    cases hs : s.stage? id with
    | none => rwa [step_resume_of_none hs]
    | some stage =>
      obtain ⟨f, hf, hp⟩ := stage?_eq_some hs
      rw [step_resume hf hp]
      exact .answered ((mem_of_flight? hf).2 ▸ hf) hp
  | drop id =>
    refine still rfl (fun id' f hf => ?_) rfl rfl rfl
    rw [step, flight?_remove] at hf
    split at hf
    · cases hf
    · exact hf
  | restart => exact still rfl (fun _ _ h => h) rfl rfl rfl
  | outside c =>
    refine still rfl (fun _ _ h => h) rfl ?_ rfl
    cases c with
    | set key value => cases he
    | unset key => cases he
    | plan ts failure => exact (Memory.planAll_eq ..).1
    | outOfOrder part b => exact (Memory.planAll_eq ..).1
    | _ => rfl

lemma flight?_call (s : Session Memory) (c : Nat) (op : Operation) (id : Nat) :
    (s.call c op).flight? id =
      (s.flight? id).or (if s.opened = id then some ⟨s.opened, c, .held op⟩ else none) := by
  simp only [call, note, flight?, List.find?_append, List.find?_cons, List.find?_nil]
  by_cases h : s.opened = id <;> simp [h]

/-! ### Records -/

/-- What the flights have done is on record: how far each has come tells all that it did, and even
a flight that is gone has removed nothing but in its place. -/
structure Recorded (s : Session Memory) : Prop where
  path : ∀ id f, s.flight? id = some f → Path s.config f.progress (s.doings id)
  below : ∀ id f, s.flight? id = some f → id < s.opened
  fresh : ∀ id, s.opened ≤ id → s.doings id = []
  once : ∀ id op op', .opened op ∈ s.doings id → .opened op' ∈ s.doings id → op = op'
  removed : ∀ id key, Removes key (s.doings id) → key = dismissedKey ∧
    ∃ o rest, s.doings id = dismissal o ++ rest ∧
      (rest = [] ∨ ∃ o', rest = [.answered (.remove dismissedKey) o', .finished none])

lemma recorded_new (config : Config) (m : Memory) : Recorded (.new config m) := by
  constructor <;> simp [new, flight?, doings, Removes]

/-- A flight that goes on by a stretch. -/
lemma Recorded.follow {s s' : Session Memory} (h : Recorded s) {f : Flight}
    (found : s.flight? f.id = some f) {t : Stretch} {ds : List Doing}
    (hconfig : s'.config = s.config)
    (hflight : ∀ id, s'.flight? id = if id = f.id then
      t.next.stage?.bind fun stage => (s.flight? id).map ({ · with progress := .waiting stage })
      else s.flight? id)
    (hopened : s'.opened = s.opened)
    (hdoings : ∀ id, s'.doings id = s.doings id ++ if f.id = id then ds else [])
    (hpath : ∀ stage, t.next = .awaiting stage →
      Path s.config (.waiting stage) (s.doings f.id ++ ds))
    (hop : ∀ op, .opened op ∉ ds)
    (hover : ∀ reply, t.next = .finished reply → ∀ key, Removes key (s.doings f.id ++ ds) →
      key = dismissedKey ∧ ∃ o o', s.doings f.id ++ ds =
        dismissal o ++ [.answered (.remove dismissedKey) o', .finished none]) :
    Recorded s' := by
  have hsame {id : Nat} (hid : f.id ≠ id) : s'.doings id = s.doings id := by
    rw [hdoings, if_neg hid, List.append_nil]
  have hown : s'.doings f.id = s.doings f.id ++ ds := by rw [hdoings, if_pos rfl]
  have hbefore {id : Nat} {op : Operation} (ho : .opened op ∈ s'.doings id) :
      .opened op ∈ s.doings id := by
    rw [hdoings] at ho
    rcases List.mem_append.mp ho with ho | ho
    · exact ho
    · split at ho
      · exact absurd ho (hop op)
      · cases ho
  refine ⟨fun id g hg => ?_, fun id g hg => ?_, fun id hid => ?_, fun id op op' ho ho' => ?_,
    fun id key hr => ?_⟩
  · rw [hflight] at hg
    rw [hconfig]
    split at hg
    · rename_i hid
      subst hid
      obtain ⟨stage, hn, hp⟩ := waiting_of_next hg
      rw [hp, hown]
      exact hpath stage hn
    · rename_i hid
      rw [hsame (Ne.symm hid)]
      exact h.path id g hg
  · rw [hopened]
    rw [hflight] at hg
    split at hg
    · rename_i hid
      exact hid ▸ h.below _ _ found
    · exact h.below id g hg
  · rw [hopened] at hid
    have hne : f.id ≠ id := by
      have := h.below _ _ found
      omega
    rw [hsame hne, h.fresh id hid]
  · exact h.once id op op' (hbefore ho) (hbefore ho')
  · by_cases hid : f.id = id
    · subst hid
      rw [hown] at hr ⊢
      cases hn : t.next with
      | finished reply =>
        obtain ⟨hkey, o, o', hd⟩ := hover reply hn key hr
        exact ⟨hkey, o, _, hd, .inr ⟨o', rfl⟩⟩
      | awaiting stage =>
        have hp := hpath stage hn
        obtain ⟨hst, hkey⟩ := hp.of_removes hr
        cases hst
        obtain ⟨o, ho⟩ := hp.eq_dismissal
        exact ⟨hkey, o, [], by rw [ho, List.append_nil], .inl rfl⟩
    · rw [hsame hid] at hr ⊢
      exact h.removed id key hr

lemma Recorded.aside {s s' : Session Memory} (h : Recorded s) (config : s'.config = s.config)
    (flights : ∀ id f, s'.flight? id = some f → s.flight? id = some f)
    (opened : s'.opened = s.opened) (doings : ∀ id, s'.doings id = s.doings id) :
    Recorded s' := by
  refine ⟨fun id f hf => ?_, fun id f hf => ?_, fun id hid => ?_, fun id op op' => ?_,
    fun id key hr => ?_⟩
  · rw [config, doings]
    exact h.path id f (flights id f hf)
  · rw [opened]
    exact h.below id f (flights id f hf)
  · rw [doings]
    exact h.fresh id (opened ▸ hid)
  · rw [doings]
    exact h.once id op op'
  · rw [doings] at hr ⊢
    exact h.removed id key hr

/-- A new flight has done nothing but be opened. -/
lemma Recorded.call {s : Session Memory} (h : Recorded s) (c : Nat) (op : Operation) :
    Recorded (s.call c op) := by
  have hsame {id : Nat} (hid : s.opened ≠ id) : (s.call c op).doings id = s.doings id := by
    rw [doings_call, if_neg hid, List.append_nil]
  have hown : (s.call c op).doings s.opened = [.opened op] := by
    rw [doings_call, if_pos rfl, h.fresh _ (Nat.le_refl _), List.nil_append]
  have hfound {id : Nat} {f : Flight} (hf : (s.call c op).flight? id = some f) :
      s.flight? id = some f ∨ (s.opened = id ∧ f.progress = .held op) := by
    rw [flight?_call] at hf
    rcases Option.or_eq_some_iff.mp hf with hf | ⟨-, hf⟩
    · exact .inl hf
    · split at hf
      · cases hf
        exact .inr ⟨‹_›, rfl⟩
      · cases hf
  refine ⟨fun id f hf => ?_, fun id f hf => ?_, fun id hid => ?_, fun id op' op'' ho ho' => ?_,
    fun id key hr => ?_⟩
  · rcases hfound hf with hf | ⟨rfl, hp⟩
    · rw [hsame (Nat.ne_of_gt (h.below id f hf))]
      exact h.path id f hf
    · rw [hown, hp]
      exact .held op
  · change id < s.opened + 1
    rcases hfound hf with hf | ⟨rfl, -⟩
    · exact Nat.lt_succ_of_lt (h.below id f hf)
    · exact Nat.lt_succ_self _
  · change s.opened + 1 ≤ id at hid
    rw [hsame (by omega)]
    exact h.fresh id (by omega)
  · by_cases hid : s.opened = id
    · subst hid
      rw [hown] at ho ho'
      simp only [List.mem_singleton, Doing.opened.injEq] at ho ho'
      rw [ho, ho']
    · rw [hsame hid] at ho ho'
      exact h.once id op' op'' ho ho'
  · by_cases hid : s.opened = id
    · subst hid
      rw [hown] at hr
      simp [Removes] at hr
    · rw [hsame hid] at hr ⊢
      exact h.removed id key hr

lemma recorded_move {s s' : Session Memory} (hm : Move s s') (h : Recorded s) : Recorded s' := by
  cases hm with
  | aside config flights opened _ doings => exact h.aside config flights opened doings
  | opened rs c op =>
    have hlog : Recorded (s.log rs) := h.aside rfl (fun _ _ hf => hf) rfl (doings_log s rs)
    exact hlog.call c op
  | @started f op found held =>
    have hpath := h.path f.id f found
    rw [held] at hpath
    refine h.follow found (t := op.start) (follow_config ..)
      (flight?_follow s f op.start) (follow_opened ..) (doings_follow s f op.start)
      (fun stage hn => .started hpath hn) (not_opened_doings _) fun reply hn key hr => ?_
    rw [hpath.eq_of_held, removes_append, removes_doings, hn] at hr
    rcases hr with hr | ⟨stage, hs, -⟩
    · simp [Removes] at hr
    · cases hs
  | @answered f stage found waiting =>
    have hpath := h.path f.id f found
    rw [waiting] at hpath
    generalize (Memory.answer stage.request s.host).2 = m
    generalize (Memory.answer stage.request s.host).1 = o
    refine h.follow found (t := stage.resume s.config o) (follow_config ..)
      (flight?_follow _ f _) (follow_opened ..) (doings_settle _ f stage o)
      (fun stage' hn => .resumed hpath hn) (fun op => ?_) fun reply hn key hr => ?_
    · simp [not_opened_doings]
    · -- a flight that is over has removed only what it waited to remove
      have hold : Removes key (s.doings f.id) ∨ stage.request = .remove key := by
        rw [← List.singleton_append, removes_append, removes_append, removes_doings, hn] at hr
        rcases hr with hr | (hr | ⟨o', hr⟩) | ⟨stage', hs, -⟩
        · exact .inl hr
        · simp at hr
        · simp only [List.mem_singleton, Doing.answered.injEq] at hr
          exact .inr hr.1.symm
        · cases hs
      have hstage : stage = .removingFlag ∧ key = dismissedKey := by
        rcases hold with hr | hr
        · obtain ⟨hp, hkey⟩ := hpath.of_removes hr
          exact ⟨Progress.waiting.inj hp, hkey⟩
        · exact eq_removingFlag hr
      obtain ⟨rfl, rfl⟩ := hstage
      obtain ⟨o₁, ho₁⟩ := hpath.eq_dismissal
      refine ⟨rfl, o₁, o, ?_⟩
      rw [ho₁]
      cases o <;> rfl

end Session

end Notification

end Tipping
