import Tipping.Proofs.Notification.Turn

/-!
What a stretch leaves behind, on any host.

A stretch moves the one flight that it belongs to and gives its notices to the host, in their
order. It ends with the request that is then out, or with the reply. All else stays as it was.
-/

namespace Tipping.Notification

def Action.notice? : Action → Option Notice
  | .notify n => some n
  | _ => none

/-- The stage that a flight goes on to, if it goes on. -/
def Next.stage? : Next → Option Stage
  | .finished _ => none
  | .awaiting stage => some stage

/-- A flight that went on waits at the stage that it went on to. -/
lemma waiting_of_next {next : Next} {found : Option Flight} {g : Flight}
    (h : (next.stage?.bind fun stage =>
      found.map ({ · with progress := .waiting stage })) = some g) :
    ∃ stage, next = .awaiting stage ∧ g.progress = .waiting stage := by
  cases next with
  | finished reply => cases h
  | awaiting stage =>
    obtain ⟨g₀, -, rfl⟩ := Option.map_eq_some_iff.mp h
    exact ⟨stage, rfl, rfl⟩

/-- What the trace ends with when a flight goes on so. -/
def Next.happening (id : Nat) : Next → Happening
  | .finished reply => .finished id reply
  | .awaiting stage => .begun id stage.request

/-- The reply that an operation ends with, if it ends and has one. -/
def Next.reply? : Next → Option RewardsReply
  | .finished reply => reply
  | .awaiting _ => none

def Happening.reply? : Happening → Option (Nat × RewardsReply)
  | .finished flight (some r) => some (flight, r)
  | _ => none

/-- Only the question for the rewards ends with a reply. -/
lemma reply?_resume {config : Config} {stage : Stage} {o : stage.request.Outcome}
    (h : stage ≠ .askingRewards) : (stage.resume config o).next.reply? = none := by
  cases stage with
  | askingRewards => exact absurd rfl h
  | _ => rcases o with f | a <;> simp only [Stage.resume] <;> (repeat' split) <;> rfl

lemma reply?_start (op : Operation) : op.start.next.reply? = none := by
  cases op <;> simp only [Operation.start] <;> (try split) <;> rfl

namespace Session

variable {η : Type}

lemma flight?_remove (s : Session η) (id id' : Nat) :
    (s.remove id).flight? id' = if id' = id then none else s.flight? id' := by
  simp only [remove, flight?, List.find?_filter]
  by_cases h : id' = id
  · rw [if_pos h, List.find?_eq_none]
    intro f _
    simp [h]
  · rw [if_neg h]
    congr 1
    funext f
    by_cases hf : f.id = id' <;> simp [hf, h]

lemma flight?_move (s : Session η) (id id' : Nat) (stage : Stage) :
    (s.move id stage).flight? id' =
      if id' = id then (s.flight? id').map ({ · with progress := .waiting stage })
      else s.flight? id' := by
  let go : Flight → Flight := fun f =>
    if f.id = id then { f with progress := .waiting stage } else f
  have hgo (f : Flight) : (go f).id = f.id := by
    by_cases hf : f.id = id <;> simp [go, hf]
  have hfind : (s.move id stage).flight? id' = (s.flight? id').map go := by
    simp only [move, flight?, List.find?_map]
    congr 2
    funext f
    exact congrArg (fun n => decide (n = id')) (hgo f)
  rw [hfind]
  cases hf : s.flight? id' with
  | none => simp
  | some f =>
    have hid : f.id = id' := (mem_of_flight? hf).2
    by_cases h : id' = id
    · simp [go, hid, h]
    · simp [go, hid, h]

lemma flight?_hold (s : Session η) (op : Operation) (id : Nat) :
    (s.hold op).flight? id =
      (s.flight? id).or (if id = s.opened then some ⟨s.opened, s.current, .held op⟩ else none) := by
  simp only [hold, note, flight?, List.find?_append, List.find?_cons, List.find?_nil]
  by_cases h : id = s.opened
  · simp [h]
  · simp [h, Ne.symm h]

variable [Notified η]

/-- Actions touch the host, the states and the end of the trace. -/
lemma performAll_eq (flight : Option Nat) (c : Nat) (s : Session η) (as : List Action) :
    ∃ host states more,
      s.performAll flight c as = { s with host, states, trace := s.trace ++ more } := by
  induction as generalizing s with
  | nil => exact ⟨s.host, s.states, [], by simp [performAll]⟩
  | cons a as ih =>
    have ha : ∃ host states more,
        perform flight c s a = { s with host, states, trace := s.trace ++ more } := by
      cases a with
      | log r => exact ⟨_, _, _, rfl⟩
      | become σ => exact ⟨_, _, _, rfl⟩
      | notify n =>
        obtain ⟨rs, hn⟩ := perform_notify flight c s n
        exact ⟨_, _, _, hn⟩
    obtain ⟨host, states, more, ha⟩ := ha
    obtain ⟨host', states', more', has⟩ := ih (perform flight c s a)
    refine ⟨host', states', more ++ more', has.trans ?_⟩
    rw [ha, List.append_assoc]

/-- The host is given the notices, one after the other. -/
lemma performAll_host (flight : Option Nat) (c : Nat) (s : Session η) (as : List Action) :
    (s.performAll flight c as).host =
      (as.filterMap Action.notice?).foldl (fun h n => (Notified.notify n h).2) s.host := by
  induction as generalizing s with
  | nil => rfl
  | cons a as ih =>
    have h := ih (perform flight c s a)
    cases a with
    | log r => exact h
    | become σ => exact h
    | notify n =>
      obtain ⟨rs, hn⟩ := perform_notify flight c s n
      rw [hn] at h
      simpa [performAll, hn, Action.notice?] using h

lemma performAll_config (flight : Option Nat) (c : Nat) (s : Session η) (as : List Action) :
    (s.performAll flight c as).config = s.config := by
  obtain ⟨_, _, _, h⟩ := performAll_eq flight c s as
  rw [h]

lemma performAll_flights (flight : Option Nat) (c : Nat) (s : Session η) (as : List Action) :
    (s.performAll flight c as).flights = s.flights := by
  obtain ⟨_, _, _, h⟩ := performAll_eq flight c s as
  rw [h]

lemma performAll_opened (flight : Option Nat) (c : Nat) (s : Session η) (as : List Action) :
    (s.performAll flight c as).opened = s.opened := by
  obtain ⟨_, _, _, h⟩ := performAll_eq flight c s as
  rw [h]

lemma follow_host (s : Session η) (f : Flight) (t : Stretch) :
    (s.follow f t).host =
      (t.actions.filterMap Action.notice?).foldl (fun h n => (Notified.notify n h).2) s.host := by
  simp only [follow]
  split <;> exact performAll_host ..

lemma follow_opened (s : Session η) (f : Flight) (t : Stretch) :
    (s.follow f t).opened = s.opened := by
  simp only [follow]
  split <;> exact performAll_opened ..

/-- Only the flight itself goes on. -/
lemma flight?_follow (s : Session η) (f : Flight) (t : Stretch) (id : Nat) :
    (s.follow f t).flight? id =
      if id = f.id then
        t.next.stage?.bind fun stage => (s.flight? id).map ({ · with progress := .waiting stage })
      else s.flight? id := by
  have hflights := performAll_flights (some f.id) f.controller s t.actions
  simp only [follow]
  split
  · rename_i reply hn
    have hremove := flight?_remove (s.performAll (some f.id) f.controller t.actions) f.id id
    rw [hn]
    simpa only [flight?, hflights, Next.stage?, Option.bind_none, note] using hremove
  · rename_i stage hn
    have hmove := flight?_move (s.performAll (some f.id) f.controller t.actions) f.id id stage
    rw [hn]
    simpa only [flight?, hflights, Next.stage?, Option.bind_some, note] using hmove

/-- A stretch ends the trace with the request that is out or with the reply. -/
lemma follow_trace (s : Session η) (f : Flight) (t : Stretch) :
    (s.follow f t).trace =
      (s.performAll (some f.id) f.controller t.actions).trace ++ [t.next.happening f.id] := by
  simp only [follow]
  split
  · rename_i reply hn
    rw [hn]
    rfl
  · rename_i stage hn
    rw [hn]
    rfl

/-- What happened stays. -/
lemma mem_trace_follow {s : Session η} {e : Happening} (h : e ∈ s.trace) (f : Flight)
    (t : Stretch) : e ∈ (s.follow f t).trace := by
  obtain ⟨host, states, more, hdone⟩ := performAll_eq (some f.id) f.controller s t.actions
  rw [follow_trace, hdone]
  simp [h]

/-- The replies so far, each with the flight that it ended. -/
def replies (s : Session η) : List (Nat × RewardsReply) := s.trace.filterMap Happening.reply?

lemma performAll_replies (flight : Option Nat) (c : Nat) (s : Session η) (as : List Action) :
    (s.performAll flight c as).replies = s.replies := by
  have h : (s.performAll flight c as).trace.filterMap Happening.reply? =
      s.trace.filterMap Happening.reply? ++ as.filterMap fun _ => none :=
    performAll_observed (fun _ => ⟨rfl, rfl⟩) (fun _ => rfl) (fun _ _ => rfl) s as
  rw [replies, h, List.filterMap_eq_nil_iff.mpr fun _ _ => rfl, List.append_nil, replies]

lemma follow_replies (s : Session η) (f : Flight) (t : Stretch) :
    (s.follow f t).replies = s.replies ++ (t.next.reply?.map fun r => (f.id, r)).toList := by
  have h := performAll_replies (some f.id) f.controller s t.actions
  rw [replies, follow_trace, List.filterMap_append, ← replies, h]
  cases t.next with
  | finished reply => cases reply <;> rfl
  | awaiting stage => rfl

end Session

end Tipping.Notification
