import Tipping.Background
import Tipping.Proofs.Notification.Flights
import Tipping.Proofs.Notification.Follow

/-!
Events of a background page, and whom each of them touches.

A page opens flights, and each event carries on one of them at most: the one that it opened, or
the one whose call the browser answers. The browser is any at all.
-/

namespace Tipping

open Browser Notification

/-- The record made of a reply that could not be sent. -/
def Sending.record? (s : Sending) : Option LogRecord :=
  match s.result with
  | .ok () => none
  | .error v => some ⟨.warn, "Failed to send response: " ++ v.debug⟩

/-- The operation that an event opens a flight for. -/
def BackgroundEvent.operation? {β : Type} : BackgroundEvent β → Option Operation
  | .runtime e => some e.operation
  | .message v => (Message.ofJsValue v).1.operation?
  | _ => none

namespace Background

/-- The records made of a message as it is read. -/
def arrivalRecords (v : JsValue) : List LogRecord :=
  (Message.ofJsValue v).2 ++ [receivedRecord (Message.ofJsValue v).1]

section

variable {β : Type} [Host β]

/-- What is kept by each call and by each answer, a flight's pursuit keeps. -/
lemma pursue_induct {P : Background β → Prop} {id : Nat}
    (hask : ∀ b r, P b →
      P { b with session := { b.session with host := (ask r b.session.host).2 } })
    (hcarry : ∀ b f stage o, b.session.flight? id = some f → f.progress = .waiting stage → P b →
      P (b.carryOn f stage o)) (answers : Nat) {b : Background β} (h : P b) :
    P (pursue id answers b) := by
  induction answers generalizing b with
  | zero => exact h
  | succ n ih =>
    simp only [pursue]
    split
    · exact h
    · rename_i f hf
      split
      · exact h
      · rename_i stage hp
        have hasked := hask b stage.request h
        split
        · exact hasked
        · rename_i o _
          exact ih (hcarry _ f stage o hf hp hasked)

/-- A flight that is over is not pursued. -/
lemma pursue_of_none {b : Background β} {id : Nat} (h : b.session.flight? id = none)
    (answers : Nat) : pursue id answers b = b := by
  cases answers with
  | zero => rfl
  | succ n => simp [pursue, h]

lemma start_of_none {b : Background β} {id : Nat} (h : b.session.flight? id = none) :
    b.start id = b := by
  have hs : b.session.start id = b.session := by simp [Session.start, h]
  rw [start, hs, pursue_of_none h]

lemma deliver_of_none {b : Background β} {id : Nat} (h : b.session.flight? id = none)
    (stage : Stage) (e : CallEvent) : b.deliver id stage e = b := by
  simp [deliver, h]

lemma receive_eq (b : Background β) (v : JsValue) :
    b.receive v = ((Message.ofJsValue v).1.keepsOpen,
      start
        { b with session := b.session.receive (Message.ofJsValue v).1 (arrivalRecords v) }
        b.session.opened) := rfl

end

variable {β : Type} [Host β]

def sent (b : Background (Noted β)) : List Sending := b.session.host.sent

/-- What was sent to the sender whose message a flight is for. -/
def repliesTo (b : Background (Noted β)) (id : Nat) : List JsValue :=
  (b.sent.filter (·.flight = id)).map Sending.value

/-! ### Replies -/

/-- Calls are no replies. -/
lemma sent_notify (n : Notice) (h : Noted β) : (Notified.notify n h).2.sent = h.sent := rfl

lemma sent_notices (ns : List Notice) (h : Noted β) :
    (ns.foldl (fun h n => (Notified.notify n h).2) h).sent = h.sent := by
  induction ns generalizing h with
  | nil => rfl
  | cons n ns ih => exact (ih _).trans (sent_notify n h)

lemma sent_follow (s : Session (Noted β)) (f : Flight) (t : Stretch) :
    (s.follow f t).host.sent = s.host.sent := by
  rw [Session.follow_host, sent_notices]

lemma sent_setUp (b : Background (Noted β)) : b.setUp.sent = b.sent := by
  simp only [sent, setUp, Session.setUp, Session.log, Session.performAll_host, sent_notices]

lemma dueReply?_follow (s : Session (Noted β)) (f : Flight) (t : Stretch) :
    dueReply? (s.follow f t) = t.next.reply?.map fun r => (f.id, r) := by
  rw [dueReply?, Session.follow_trace, List.getLast?_concat]
  cases t.next with
  | finished reply => cases reply <;> rfl
  | awaiting stage => rfl

/-- A flight that is carried on has the reply sent that it ends with, if any; a sending that went
wrong leaves a record. -/
lemma carryOn_eq (b : Background (Noted β)) (f : Flight) (stage : Stage)
    (o : stage.request.Outcome) : ∃ sendings : List Sending,
      sendings.map (fun s => (s.flight, s.value)) =
        (stage.resume b.session.config o).next.reply?.toList.map
          (fun r => (f.id, replyValue r)) ∧
      ∃ browser replies, b.carryOn f stage o =
        { b with
          session := Session.log
            { b.session.settle f stage o with host := ⟨browser, b.sent ++ sendings⟩ }
            (sendings.filterMap Sending.record?)
          replies } := by
  have hsent : (b.session.settle f stage o).host.sent = b.sent := sent_follow ..
  have hdue : dueReply? (b.session.settle f stage o) =
      (stage.resume b.session.config o).next.reply?.map fun r => (f.id, r) := dueReply?_follow ..
  simp only [carryOn, sendReply, hdue]
  cases (stage.resume b.session.config o).next.reply? with
  | none =>
    refine ⟨[], rfl, (b.session.settle f stage o).host.browser, b.replies, ?_⟩
    simp [Session.log, ← hsent]
  | some r =>
    rw [← hsent]
    cases hr : Host.reply f.id (replyValue r) (b.session.settle f stage o).host.browser with
    | mk result browser =>
      refine ⟨[⟨f.id, replyValue r, result⟩], rfl, browser, b.replies ++ [(f.id, r)], ?_⟩
      cases result with
      | ok u => simp [Host.reply, hr, Sending.record?, Session.log]
      | error v => simp [Host.reply, hr, Sending.record?, Session.log]

lemma flight?_carryOn (b : Background (Noted β)) (f : Flight) (stage : Stage)
    (o : stage.request.Outcome) (id : Nat) :
    (b.carryOn f stage o).session.flight? id =
      if id = f.id then
        (stage.resume b.session.config o).next.stage?.bind fun stage =>
          (b.session.flight? id).map ({ · with progress := .waiting stage })
      else b.session.flight? id := by
  obtain ⟨sendings, -, browser, replies, h⟩ := carryOn_eq b f stage o
  rw [h]
  exact (b.session.note (.answered f.id stage.request o)).flight?_follow f _ id

lemma opened_carryOn (b : Background (Noted β)) (f : Flight) (stage : Stage)
    (o : stage.request.Outcome) : (b.carryOn f stage o).session.opened = b.session.opened := by
  obtain ⟨sendings, -, browser, replies, h⟩ := carryOn_eq b f stage o
  rw [h]
  exact Session.follow_opened ..

lemma repliesTo_carryOn (b : Background (Noted β)) (f : Flight) (stage : Stage)
    (o : stage.request.Outcome) (id : Nat) :
    (b.carryOn f stage o).repliesTo id = b.repliesTo id ++
      if id = f.id then (stage.resume b.session.config o).next.reply?.toList.map replyValue
      else [] := by
  obtain ⟨sendings, hs, browser, replies, h⟩ := carryOn_eq b f stage o
  have hto : (sendings.filter (·.flight = id)).map Sending.value =
      ((sendings.map fun s => (s.flight, s.value)).filter (·.1 = id)).map Prod.snd := by
    simp [List.filter_map, List.map_map, Function.comp_def]
  have happend : (b.carryOn f stage o).repliesTo id =
      b.repliesTo id ++ (sendings.filter (·.flight = id)).map Sending.value := by
    rw [h]
    simp [repliesTo, sent, Session.log]
  rw [happend, hto, hs]
  by_cases hid : id = f.id
  · simp [hid, List.filter_map, Function.comp_def]
  · simp [hid, Ne.symm hid, List.filter_map, Function.comp_def]

/-! ### Numbers -/

lemma opened_pursue (id answers : Nat) (b : Background (Noted β)) :
    (pursue id answers b).session.opened = b.session.opened :=
  pursue_induct (P := fun b' => b'.session.opened = b.session.opened) (fun _ _ h => h)
    (fun b' f stage o _ _ h => (opened_carryOn b' f stage o).trans h) answers rfl

lemma opened_start (b : Background (Noted β)) (id : Nat) :
    (b.start id).session.opened = b.session.opened := by
  rw [start, opened_pursue]
  simp only [Session.start]
  split
  · split
    · exact Session.follow_opened ..
    · rfl
  · rfl

lemma opened_deliver (b : Background (Noted β)) (id : Nat) (stage : Stage) (e : CallEvent) :
    (b.deliver id stage e).session.opened = b.session.opened := by
  simp only [deliver]
  split
  · rfl
  · split
    · rw [opened_pursue, opened_carryOn]
    · rfl

lemma opened_setUp (b : Background (Noted β)) : b.setUp.session.opened = b.session.opened :=
  Session.performAll_opened ..

/-- An event opens one flight, under the next number, or none. -/
lemma opened_step (b : Background (Noted β)) (e : BackgroundEvent β) :
    (b.step e).session.opened = b.session.opened + if e.operation?.isSome then 1 else 0 := by
  cases e with
  | reload => exact opened_setUp _
  | runtime e => exact opened_start ..
  | message v =>
    rw [step, receive_eq, opened_start]
    cases hop : (Message.ofJsValue v).1.operation? <;>
      simp [Session.receive, BackgroundEvent.operation?, hop, Session.log, Session.hold,
        Session.note]
  | answer id stage e => exact opened_deliver ..
  | outside change => rfl

lemma opened_le_step (b : Background (Noted β)) (e : BackgroundEvent β) :
    b.session.opened ≤ (b.step e).session.opened := by
  rw [opened_step]
  exact Nat.le_add_right _ _

/-! ### Flights that an event passes by -/

/-- The flight is where it was, and its sender was told no more. -/
structure Aside (id : Nat) (b b' : Background (Noted β)) : Prop where
  flight : b'.session.flight? id = b.session.flight? id
  replies : b'.repliesTo id = b.repliesTo id

omit [Host β] in
lemma Aside.trans {id : Nat} {b b' b'' : Background (Noted β)} (h : Aside id b b')
    (h' : Aside id b' b'') : Aside id b b'' :=
  ⟨h'.flight.trans h.flight, h'.replies.trans h.replies⟩

lemma aside_pursue {id id' : Nat} (h : id ≠ id') (answers : Nat) (b : Background (Noted β)) :
    Aside id b (pursue id' answers b) := by
  refine pursue_induct (fun _ _ hb => ⟨hb.flight, hb.replies⟩) (fun b' f stage o hf _ hb => ?_)
    answers ⟨rfl, rfl⟩
  have hid : id ≠ f.id := (Session.mem_of_flight? hf).2 ▸ h
  refine hb.trans ⟨?_, ?_⟩
  · rw [flight?_carryOn, if_neg hid]
  · rw [repliesTo_carryOn, if_neg hid, List.append_nil]

lemma aside_start {id id' : Nat} (h : id ≠ id') (b : Background (Noted β)) :
    Aside id b (b.start id') := by
  have hstarted : Aside id b { b with session := b.session.start id' } := by
    cases hf : b.session.flight? id' with
    | none => simp only [Session.start, hf]; exact ⟨rfl, rfl⟩
    | some f =>
      have hid : id ≠ f.id := (Session.mem_of_flight? hf).2 ▸ h
      cases hp : f.progress with
      | held op =>
        simp only [Session.start, hf, hp]
        refine ⟨?_, ?_⟩
        · rw [Session.flight?_follow, if_neg hid]
        · simp only [repliesTo, sent, sent_follow]
      | waiting stage => simp only [Session.start, hf, hp]; exact ⟨rfl, rfl⟩
  exact hstarted.trans (aside_pursue h 3 _)

lemma aside_deliver {id id' : Nat} (h : id ≠ id') (b : Background (Noted β)) (stage : Stage)
    (e : CallEvent) : Aside id b (b.deliver id' stage e) := by
  simp only [deliver]
  split
  · exact ⟨rfl, rfl⟩
  · rename_i f hf
    have hid : id ≠ f.id := (Session.mem_of_flight? hf).2 ▸ h
    split
    · refine Aside.trans ⟨?_, ?_⟩ (aside_pursue h 3 _)
      · rw [flight?_carryOn, if_neg hid]
      · rw [repliesTo_carryOn, if_neg hid, List.append_nil]
    · exact ⟨rfl, rfl⟩

omit [Host β] in
lemma aside_hold {b : Background (Noted β)} {id : Nat} (h : id ≠ b.session.opened)
    (op : Operation) : Aside id b { b with session := b.session.hold op } := by
  refine ⟨?_, rfl⟩
  rw [Session.flight?_hold, if_neg h, Option.or_none]

omit [Host β] in
lemma aside_receive {b : Background (Noted β)} {id : Nat} (h : id ≠ b.session.opened)
    (m : Message) (rs : List LogRecord) :
    Aside id b { b with session := b.session.receive m rs } := by
  simp only [Session.receive]
  split
  · rename_i op _
    have hheld := aside_hold
      (b := { b with session := b.session.log (rs ++ m.remarks) }) h op
    exact ⟨hheld.flight, hheld.replies⟩
  · exact ⟨rfl, rfl⟩

lemma aside_setUp (id : Nat) (b : Background (Noted β)) : Aside id b b.setUp := by
  refine ⟨?_, ?_⟩
  · simp only [setUp, Session.setUp, Session.log, Session.flight?, Session.performAll_flights]
  · rw [repliesTo, repliesTo, sent_setUp]

/-- An event passes by every flight but the one that it opens and the one that it answers. -/
lemma aside_step {b : Background (Noted β)} {id : Nat} {e : BackgroundEvent β}
    (h : id ≠ b.session.opened) (he : ∀ stage answer, e ≠ .answer id stage answer) :
    Aside id b (b.step e) := by
  cases e with
  | reload => exact ⟨(aside_setUp id _).flight, (aside_setUp id _).replies⟩
  | runtime e => exact (aside_hold h e.operation).trans (aside_start h _)
  | message v =>
    rw [step, receive_eq]
    exact (aside_receive h _ _).trans (aside_start h _)
  | answer id' stage e =>
    have hid : id ≠ id' := fun heq => he stage e (heq ▸ rfl)
    exact aside_deliver hid b stage e
  | outside change => exact ⟨rfl, rfl⟩

/-- A number that no flight has is given to the next one opened, if it is the next number. -/
lemma gone_step {b : Background (Noted β)} {id : Nat} {e : BackgroundEvent β}
    (h : b.session.flight? id = none) (he : id = b.session.opened → e.operation? = none) :
    (b.step e).session.flight? id = none := by
  by_cases hanswer : ∃ stage answer, e = .answer id stage answer
  · obtain ⟨stage, answer, rfl⟩ := hanswer
    rw [step, deliver_of_none h]
    exact h
  · by_cases hid : id = b.session.opened
    · cases e with
      | reload => exact (aside_setUp id _).flight.trans h
      | runtime e => exact absurd (he hid) (Option.some_ne_none _)
      | message v =>
        have hop : (Message.ofJsValue v).1.operation? = none := he hid
        rw [step, receive_eq, ← hid]
        simp only [Session.receive, hop]
        rw [start_of_none]
        · exact h
        · exact h
      | answer id' stage e =>
        have hne : id ≠ id' := fun heq => hanswer ⟨stage, e, heq ▸ rfl⟩
        exact (aside_deliver hne b stage e).flight.trans h
      | outside change => exact h
    · have haside := aside_step hid fun stage answer heq => hanswer ⟨stage, answer, heq⟩
      exact haside.flight.trans h

/-- Numbers that were not given yet have no flight. -/
def Fresh (b : Background (Noted β)) : Prop :=
  ∀ id, b.session.opened ≤ id → b.session.flight? id = none

lemma fresh_step {b : Background (Noted β)} (h : Fresh b) (e : BackgroundEvent β) :
    Fresh (b.step e) := by
  intro id hid
  have hopened := opened_step b e
  refine gone_step (h id (by omega)) fun heq => ?_
  cases hop : e.operation? with
  | none => rfl
  | some op =>
    rw [hop] at hopened
    simp only [Option.isSome_some, if_true] at hopened
    omega

end Background

end Tipping
