import Tipping.Proofs.Background.Page

/-!
The books of a page.

The trace says which flights are over, and with which reply; the browser knows what it was given to
send, and how that went. The two agree: every reply was sent once and nothing besides, each sending
that went wrong has one record, and a flight that is under way no more has come to its end.
-/

namespace Tipping

open Browser Notification

/-! ### Records of sendings that went wrong -/

/-- The record is of a reply that could not be sent. -/
def LogRecord.IsSendFailure (r : LogRecord) : Prop :=
  r.level = .warn ∧ "Failed to send response: ".toList <+: r.text.toList

instance (r : LogRecord) : Decidable r.IsSendFailure :=
  inferInstanceAs (Decidable (_ ∧ _))

def Notification.Happening.sendFailure? : Happening → Option LogRecord
  | .logged r => if r.IsSendFailure then some r else none
  | _ => none

lemma sendFailure?_record {s : Sending} {r : LogRecord} (h : s.record? = some r) :
    (Happening.logged r).sendFailure? = some r := by
  cases hs : s.result with
  | ok u => simp [Sending.record?, hs] at h
  | error v =>
    simp only [Sending.record?, hs, Option.some.injEq] at h
    have hr : r.IsSendFailure := by simp [← h, LogRecord.IsSendFailure]
    exact if_pos hr

/-! Nothing else that the program logs looks like one. -/

lemma quiet_complaint (n : Notice) (f : Failure) :
    ¬ (complaint (purpose n) f).IsSendFailure := by
  cases n <;> simp [complaint, purpose, LogRecord.IsSendFailure]

lemma quiet_start {op : Operation} {r : LogRecord} (h : .log r ∈ op.start.actions) :
    ¬ r.IsSendFailure := by
  cases op with
  | installed reason =>
    simp only [Operation.start] at h
    split at h <;> simp [await, finish, info, debug] at h <;> simp [h, LogRecord.IsSendFailure]
  | _ => simp [Operation.start, await] at h

lemma quiet_resume {config : Config} {stage : Stage} {o : stage.request.Outcome} {r : LogRecord}
    (h : .log r ∈ (stage.resume config o).actions) : ¬ r.IsSendFailure := by
  cases stage <;> rcases o with f | a <;> simp only [Stage.resume] at h <;> (repeat' split at h) <;>
    simp [finish, await, showBadge, complain, complaint, info, debug] at h <;>
    simp [h, LogRecord.IsSendFailure]

lemma quiet_parse {v : Json} {r : LogRecord} (h : r ∈ (Message.parse v).2) :
    ¬ r.IsSendFailure := by
  simp only [Message.parse] at h
  repeat' split at h
  all_goals simp at h
  simp [h, LogRecord.IsSendFailure]

lemma quiet_ofText {text : String} {r : LogRecord} (h : r ∈ (Message.ofText text).2) :
    ¬ r.IsSendFailure := by
  simp only [Message.ofText] at h
  split at h
  · exact quiet_parse h
  · simp at h
    simp [h, LogRecord.IsSendFailure]

lemma quiet_arrival {v : JsValue} {r : LogRecord} (h : r ∈ Background.arrivalRecords v) :
    ¬ r.IsSendFailure := by
  rw [Background.arrivalRecords, List.mem_append] at h
  rcases h with h | h
  · unfold Message.ofJsValue at h
    split at h
    · exact quiet_parse h
    · exact quiet_parse h
    · exact quiet_parse h
    · split at h
      · exact quiet_ofText h
      · rcases List.mem_cons.mp h with rfl | h
        · simp [LogRecord.IsSendFailure]
        · exact quiet_parse h
  · simp only [Background.receivedRecord, List.mem_singleton] at h
    simp [h, LogRecord.IsSendFailure]

lemma quiet_remarks {m : Message} {r : LogRecord} (h : r ∈ m.remarks) : ¬ r.IsSendFailure := by
  cases m <;> simp [Message.remarks] at h
  simp [h, LogRecord.IsSendFailure]

lemma quiet_load {text : Option String} {r : LogRecord} (h : r ∈ (Config.load text).records) :
    ¬ r.IsSendFailure := by
  simp only [Config.load] at h
  split at h
  · simp at h
  · simp at h
    simp [h, LogRecord.IsSendFailure]

/-! ### Sessions -/

namespace Notification.Session

variable {η : Type}

/-- The records of replies that could not be sent. -/
def sendFailures (s : Session η) : List LogRecord := s.trace.filterMap Happening.sendFailure?

/-- Each flight that was opened is under way or has come to its end. -/
def Accounted (s : Session η) : Prop :=
  ∀ id < s.opened, s.flight? id = none → ∃ reply, Happening.finished id reply ∈ s.trace

lemma sendFailures_note (s : Session η) {e : Happening} (h : e.sendFailure? = none) :
    (s.note e).sendFailures = s.sendFailures := by
  simp [sendFailures, note, h]

lemma sendFailures_log (s : Session η) {rs : List LogRecord} (h : ∀ r ∈ rs, ¬ r.IsSendFailure) :
    (s.log rs).sendFailures = s.sendFailures := by
  have hquiet : (rs.map Happening.logged).filterMap Happening.sendFailure? = [] := by
    rw [List.filterMap_map, List.filterMap_eq_nil_iff]
    exact fun r hr => if_neg (h r hr)
  rw [sendFailures, log, List.filterMap_append, hquiet, List.append_nil, sendFailures]

lemma replies_log (s : Session η) (rs : List LogRecord) : (s.log rs).replies = s.replies := by
  have hnone : (rs.map Happening.logged).filterMap Happening.reply? = [] := by
    rw [List.filterMap_map, List.filterMap_eq_nil_iff]
    exact fun r _ => rfl
  rw [replies, log, List.filterMap_append, hnone, List.append_nil, replies]

lemma accounted_log {s : Session η} (h : s.Accounted) (rs : List LogRecord) :
    (s.log rs).Accounted := by
  intro id hid hf
  obtain ⟨reply, hr⟩ := h id hid hf
  exact ⟨reply, List.mem_append_left _ hr⟩

lemma accounted_hold {s : Session η} (h : s.Accounted) (op : Operation) :
    (s.hold op).Accounted := by
  intro id hid hf
  rw [flight?_hold, Option.or_eq_none_iff] at hf
  obtain ⟨hold, hnew⟩ := hf
  have hne : id ≠ s.opened := fun heq => by simp [heq] at hnew
  have hid : id < s.opened + 1 := hid
  obtain ⟨reply, hr⟩ := h id (by omega) hold
  exact ⟨reply, List.mem_append_left _ hr⟩

variable [Notified η]

lemma sendFailures_performAll {s : Session η} (flight : Option Nat) (c : Nat) {as : List Action}
    (h : ∀ r, Action.log r ∈ as → ¬ r.IsSendFailure) :
    (s.performAll flight c as).sendFailures = s.sendFailures := by
  induction as generalizing s with
  | nil => rfl
  | cons a as ih =>
    have ha : (perform flight c s a).sendFailures = s.sendFailures := by
      cases a with
      | log r => exact sendFailures_note s (if_neg (h r (List.mem_cons_self ..)))
      | become σ => exact sendFailures_note { s with states := s.states.set c σ } rfl
      | notify n =>
        have hquiet := quiet_complaint n
        cases ho : (Notified.notify n s.host).1 <;>
          simp [sendFailures, perform, note, Happening.sendFailure?, ho, hquiet]
    exact (ih fun r hr => h r (List.mem_cons_of_mem _ hr)).trans ha

lemma sendFailures_follow (s : Session η) (f : Flight) {t : Stretch}
    (h : ∀ r, Action.log r ∈ t.actions → ¬ r.IsSendFailure) :
    (s.follow f t).sendFailures = s.sendFailures := by
  have hend : [t.next.happening f.id].filterMap Happening.sendFailure? = [] := by
    cases t.next <;> rfl
  have hdone := sendFailures_performAll (s := s) (some f.id) f.controller h
  rw [sendFailures, follow_trace, List.filterMap_append, hend, List.append_nil]
  exact hdone

lemma accounted_performAll {s : Session η} (h : s.Accounted) (flight : Option Nat) (c : Nat)
    (as : List Action) : (s.performAll flight c as).Accounted := by
  obtain ⟨host, states, more, hdone⟩ := performAll_eq flight c s as
  rw [hdone]
  intro id hid hf
  obtain ⟨reply, hr⟩ := h id hid hf
  exact ⟨reply, List.mem_append_left _ hr⟩

lemma accounted_follow {s : Session η} (h : s.Accounted) (f : Flight) (t : Stretch) :
    (s.follow f t).Accounted := by
  intro id hid hf
  rw [follow_opened] at hid
  have old (hf : s.flight? id = none) :
      ∃ reply, Happening.finished id reply ∈ (s.follow f t).trace := by
    obtain ⟨reply, hr⟩ := h id hid hf
    exact ⟨reply, mem_trace_follow hr f t⟩
  rw [flight?_follow] at hf
  split at hf
  · rename_i heq
    cases hn : t.next with
    | finished reply =>
      refine ⟨reply, ?_⟩
      rw [follow_trace, hn, heq]
      exact List.mem_append_right _ (List.mem_singleton_self _)
    | awaiting stage =>
      simp only [hn, Next.stage?, Option.bind_some, Option.map_eq_none_iff] at hf
      exact old hf
  · exact old hf

end Notification.Session

/-! ### Pages -/

namespace Background

variable {β : Type} [Host β]

/-- The books are in order. -/
structure Booked (b : Background (Noted β)) : Prop where
  replies : b.sent.map (fun s => (s.flight, s.value)) =
    b.session.replies.map fun (id, r) => (id, replyValue r)
  failures : b.session.sendFailures = b.sent.filterMap Sending.record?
  accounted : b.session.Accounted

omit [Host β] in
lemma Booked.of_eq {b b' : Background (Noted β)} (h : Booked b)
    (hreplies : b'.session.replies = b.session.replies)
    (hfailures : b'.session.sendFailures = b.session.sendFailures)
    (hsent : b'.sent = b.sent) (haccounted : b'.session.Accounted) : Booked b' :=
  ⟨by rw [hsent, hreplies, h.replies], by rw [hsent, hfailures, h.failures], haccounted⟩

lemma booked_carryOn {b : Background (Noted β)} {f : Flight} {stage : Stage}
    {o : stage.request.Outcome} (h : Booked b) : Booked (b.carryOn f stage o) := by
  obtain ⟨sendings, hs, browser, replies, hb⟩ := carryOn_eq b f stage o
  let answered := b.session.note (.answered f.id stage.request o)
  have hnoted : answered.Accounted := by
    intro id hid hf
    obtain ⟨reply, hr⟩ := h.accounted id hid hf
    exact ⟨reply, List.mem_append_left _ hr⟩
  have hanswered : answered.replies = b.session.replies := by
    simp [answered, Session.replies, Session.note, Happening.reply?]
  have hfailures : (b.session.settle f stage o).sendFailures = b.session.sendFailures := by
    rw [Session.settle, Session.sendFailures_follow _ _ fun r hr => quiet_resume hr,
      Session.sendFailures_note _ rfl]
  have hreplies : (b.session.settle f stage o).replies = b.session.replies ++
      ((stage.resume b.session.config o).next.reply?.map fun r => (f.id, r)).toList := by
    rw [Session.settle, Session.follow_replies]
    exact congrArg (· ++ _) hanswered
  have hrecords : ((sendings.filterMap Sending.record?).map Happening.logged).filterMap
      Happening.sendFailure? = sendings.filterMap Sending.record? := by
    rw [List.map_filterMap, List.filterMap_filterMap]
    congr 1
    funext s
    cases hr : s.record? with
    | none => rfl
    | some r => exact sendFailure?_record hr
  let settled : Session (Noted β) :=
    { b.session.settle f stage o with host := ⟨browser, b.sent ++ sendings⟩ }
  have hlogged : (settled.log (sendings.filterMap Sending.record?)).replies =
      (b.session.settle f stage o).replies := Session.replies_log ..
  rw [hb]
  refine ⟨?_, ?_, ?_⟩
  · show (b.sent ++ sendings).map _ = _
    rw [hlogged, hreplies, List.map_append, List.map_append, h.replies, hs]
    cases (stage.resume b.session.config o).next.reply? <;> rfl
  · show ((b.session.settle f stage o).trace ++ _).filterMap _ = (b.sent ++ sendings).filterMap _
    have hbefore : (b.session.settle f stage o).trace.filterMap Happening.sendFailure? =
        b.sent.filterMap Sending.record? := hfailures.trans h.failures
    rw [List.filterMap_append, List.filterMap_append, hrecords, hbefore]
  · exact Session.accounted_log (Session.accounted_follow hnoted f _) _

lemma booked_pursue {b : Background (Noted β)} (h : Booked b) (id answers : Nat) :
    Booked (pursue id answers b) :=
  pursue_induct (P := Booked) (fun _ _ h => h.of_eq rfl rfl rfl h.accounted)
    (fun _ _ _ _ _ _ h => booked_carryOn h) answers h

lemma booked_start {b : Background (Noted β)} (h : Booked b) (id : Nat) : Booked (b.start id) := by
  refine booked_pursue ?_ id 3
  simp only [Session.start]
  split
  · rename_i f _
    split
    · rename_i op _
      have hreplies : (b.session.follow f op.start).replies = b.session.replies := by
        rw [Session.follow_replies, reply?_start]
        exact List.append_nil _
      exact h.of_eq hreplies (Session.sendFailures_follow _ _ fun r hr => quiet_start hr)
        (sent_follow ..) (Session.accounted_follow h.accounted f _)
    · exact h
  · exact h

lemma booked_deliver {b : Background (Noted β)} (h : Booked b) (id : Nat) (stage : Stage)
    (e : CallEvent) : Booked (b.deliver id stage e) := by
  simp only [deliver]
  split
  · exact h
  · split
    · exact booked_pursue (booked_carryOn h) ..
    · exact h

lemma booked_setUp {b : Background (Noted β)} (h : Booked b) : Booked b.setUp := by
  have hload : ∀ r ∈ (Config.load b.settings).records, ¬ r.IsSendFailure :=
    fun r hr => quiet_load hr
  have hset (c : Config) : ∀ r, Action.log r ∈ Notification.setUp c → ¬ r.IsSendFailure := by
    simp [Notification.setUp]
  have hready : ∀ r ∈ [⟨.info, "🚀 Rewards background initialized (Rust core)"⟩],
      ¬ LogRecord.IsSendFailure r := by simp [LogRecord.IsSendFailure]
  refine h.of_eq ?_ ?_ (sent_setUp b) ?_
  · simp only [setUp, Session.setUp]
    rw [Session.replies_log, Session.performAll_replies, Session.replies_log]
    rfl
  · simp only [setUp, Session.setUp]
    rw [Session.sendFailures_log _ hready, Session.sendFailures_performAll _ _ (hset _),
      Session.sendFailures_log _ hload]
    rfl
  · have hbefore : Session.Accounted
        { b.session with config := (Config.load b.settings).config } := h.accounted
    have hloaded := Session.accounted_log hbefore (Config.load b.settings).records
    exact Session.accounted_log (Session.accounted_performAll hloaded none _ _) _

omit [Host β] in
lemma booked_hold {b : Background (Noted β)} (h : Booked b) (op : Operation) :
    Booked { b with session := b.session.hold op } := by
  refine h.of_eq ?_ ?_ rfl (Session.accounted_hold h.accounted op)
  · simp [Session.replies, Session.hold, Session.note, Happening.reply?]
  · simp [Session.sendFailures, Session.hold, Session.note, Happening.sendFailure?]

omit [Host β] in
lemma booked_receive {b : Background (Noted β)} (h : Booked b) (v : JsValue) : Booked
    { b with session := b.session.receive (Message.ofJsValue v).1 (arrivalRecords v) } := by
  have hrecords : ∀ r ∈ arrivalRecords v ++ (Message.ofJsValue v).1.remarks,
      ¬ r.IsSendFailure := by
    intro r hr
    rcases List.mem_append.mp hr with hr | hr
    · exact quiet_arrival hr
    · exact quiet_remarks hr
  have hlogged : Booked { b with
      session := b.session.log (arrivalRecords v ++ (Message.ofJsValue v).1.remarks) } :=
    h.of_eq (Session.replies_log ..) (Session.sendFailures_log _ hrecords) rfl
      (Session.accounted_log h.accounted _)
  simp only [Session.receive]
  split
  · exact booked_hold hlogged _
  · exact hlogged

lemma booked_step {b : Background (Noted β)} (h : Booked b) (e : BackgroundEvent β) :
    Booked (b.step e) := by
  cases e with
  | reload => exact booked_setUp (h.of_eq rfl rfl rfl h.accounted)
  | runtime e => exact booked_start (booked_hold h e.operation) _
  | message v => exact booked_start (booked_receive h v) _
  | answer id stage e => exact booked_deliver h id stage e
  | outside change => exact h.of_eq rfl rfl rfl h.accounted

lemma booked_new (settings : Option String) (browser : β) :
    Booked (.new settings (⟨browser, []⟩ : Noted β)) := by
  refine booked_setUp ⟨rfl, rfl, ?_⟩
  exact fun id hid => absurd hid (Nat.not_lt_zero id)

end Background

end Tipping
