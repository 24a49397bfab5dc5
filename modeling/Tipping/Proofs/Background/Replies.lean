import Tipping.Proofs.Background.Ledger

/-!
One reply to each who asks.

A message that asks for the rewards opens a flight that waits for one query. The first event of
that query, whatever it is and whenever it comes, ends the flight and sends the one reply; no
other flight ever sends any. So the replies follow from the queries, each to its own sender.
-/

namespace Tipping

open Browser Notification

/-- Whether rewards are enabled, as the query for it said. -/
def Browser.CallEvent.saysEnabled : CallEvent → Bool
  | .calledBack (.bool b) globalObject => (lastError? globalObject).isNone && b
  | _ => false

lemma resume_askingRewards (config : Config) (e : CallEvent) :
    (Stage.askingRewards.resume config
      (outcome Stage.askingRewards.request e.settlement)).next =
      .finished (some ⟨e.saysEnabled⟩) := by
  cases e with
  | threw error => rfl
  | calledBack value globalObject =>
    cases he : lastError? globalObject with
    | some message =>
      have hs : (CallEvent.calledBack value globalObject).settlement =
          .rejected (.string message) := by
        simp [CallEvent.settlement, he]
      have hb : (CallEvent.calledBack value globalObject).saysEnabled = false := by
        cases value <;> simp [CallEvent.saysEnabled, he]
      rw [hs, hb]
      rfl
    | none =>
      have hs : (CallEvent.calledBack value globalObject).settlement = .resolved value := by
        simp [CallEvent.settlement, he]
      have hb : (CallEvent.calledBack value globalObject).saysEnabled =
          value.bool?.getD false := by
        cases value <;> simp [CallEvent.saysEnabled, JsValue.bool?, he]
      rw [hs, hb]
      cases value <;> rfl

namespace BackgroundEvent

variable {β : Type}

/-- The event is a message that asks whether rewards are enabled. -/
def asks : BackgroundEvent β → Bool
  | .message v => (Message.ofJsValue v).1 = .rewardsEnabled
  | _ => false

/-- What the event says to a query for the rewards that the flight made. -/
def answerTo? (id : Nat) : BackgroundEvent β → Option CallEvent
  | .answer flight .askingRewards e => if flight = id then some e else none
  | _ => none

lemma operation?_of_asks {e : BackgroundEvent β} (h : e.asks) :
    e.operation? = some .askRewards := by
  cases e with
  | message v =>
    have hv : (Message.ofJsValue v).1 = .rewardsEnabled := of_decide_eq_true h
    simp [operation?, hv, Message.operation?]
  | _ => cases h

lemma asks_of_operation? {e : BackgroundEvent β} (h : e.operation? = some .askRewards) :
    e.asks := by
  cases e with
  | message v =>
    cases hv : (Message.ofJsValue v).1 with
    | rewardsEnabled => exact decide_eq_true hv
    | donate tip => simp [operation?, hv, Message.operation?] at h
    | unknown tag => simp [operation?, hv, Message.operation?] at h
  | runtime e => cases e <;> cases h
  | _ => cases h

end BackgroundEvent

namespace Background

variable {β : Type} [Host β]

/-! ### Flights that owe no reply -/

/-- The flight, if there is one of that number, is not for the rewards; nothing was ever sent. -/
structure Mute (b : Background (Noted β)) (id : Nat) : Prop where
  work : ∀ f, b.session.flight? id = some f → f.progress.operation ≠ .askRewards
  replies : b.repliesTo id = []

omit [Host β] in
lemma Mute.aside {b b' : Background (Noted β)} {id : Nat} (h : Mute b id) (ha : Aside id b b') :
    Mute b' id :=
  ⟨fun f hf => h.work f (ha.flight ▸ hf), ha.replies.trans h.replies⟩

lemma mute_carryOn {b : Background (Noted β)} {id : Nat} {f : Flight} {stage : Stage}
    {o : stage.request.Outcome} (hf : b.session.flight? id = some f)
    (hp : f.progress = .waiting stage) (h : Mute b id) : Mute (b.carryOn f stage o) id := by
  have hid : id = f.id := (Session.mem_of_flight? hf).2.symm
  have hop : stage.operation ≠ .askRewards := by
    have := h.work f hf
    rwa [hp] at this
  have hstage : stage ≠ .askingRewards := fun heq => hop (heq ▸ rfl)
  refine ⟨fun g hg => ?_, ?_⟩
  · rw [flight?_carryOn, if_pos hid] at hg
    obtain ⟨next, hn, hg⟩ := waiting_of_next hg
    rw [hg]
    exact fun heq => hop ((operation_of_resume hn).symm.trans heq)
  · rw [repliesTo_carryOn, h.replies, reply?_resume hstage]
    simp

lemma mute_pursue {b : Background (Noted β)} {id : Nat} (answers : Nat) (h : Mute b id) :
    Mute (pursue id answers b) id :=
  pursue_induct (P := fun b => Mute b id) (fun _ _ h => h.aside ⟨rfl, rfl⟩)
    (fun _ _ _ _ hf hp h => mute_carryOn hf hp h) answers h

lemma mute_start {b : Background (Noted β)} {id : Nat} (h : Mute b id) :
    Mute (b.start id) id := by
  refine mute_pursue 3 ?_
  cases hf : b.session.flight? id with
  | none =>
    simp only [Session.start, hf]
    exact h
  | some f =>
    have hid : id = f.id := (Session.mem_of_flight? hf).2.symm
    have hop := h.work f hf
    cases hp : f.progress with
    | held op =>
      rw [hp] at hop
      simp only [Session.start, hf, hp]
      refine ⟨fun g hg => ?_, ?_⟩
      · rw [Session.flight?_follow, if_pos hid] at hg
        obtain ⟨next, hn, hg⟩ := waiting_of_next hg
        rw [hg]
        exact fun heq => hop ((operation_of_start hn).symm.trans heq)
      · simpa only [repliesTo, sent, sent_follow] using h.replies
    | waiting stage =>
      simp only [Session.start, hf, hp]
      exact h

omit [Host β] in
lemma mute_hold {b : Background (Noted β)} {id : Nat} {op : Operation} (h : Mute b id)
    (hop : id = b.session.opened → op ≠ .askRewards) :
    Mute { b with session := b.session.hold op } id := by
  refine ⟨fun f hf => ?_, h.replies⟩
  rw [Session.flight?_hold, Option.or_eq_some_iff] at hf
  rcases hf with hf | ⟨-, hf⟩
  · exact h.work f hf
  · split at hf
    · rename_i hid
      cases hf
      exact hop hid
    · cases hf

/-- Only a message that asks for the rewards opens a flight that owes a reply. -/
lemma mute_step {b : Background (Noted β)} {id : Nat} {e : BackgroundEvent β} (h : Mute b id)
    (he : id = b.session.opened → ¬ e.asks) : Mute (b.step e) id := by
  cases e with
  | reload => exact h.aside ⟨(aside_setUp id _).flight, (aside_setUp id _).replies⟩
  | runtime e =>
    have hop : e.operation ≠ .askRewards := by cases e <;> simp [RuntimeEvent.operation]
    have hheld := mute_hold h fun _ => hop
    by_cases hid : id = b.session.opened
    · exact hid ▸ mute_start (hid ▸ hheld)
    · exact hheld.aside (aside_start hid _)
  | message v =>
    have hreceived : Mute
        { b with session := b.session.receive (Message.ofJsValue v).1 (arrivalRecords v) }
        id := by
      simp only [Session.receive]
      split
      · rename_i op hop
        have hlogged : Mute { b with
            session := b.session.log (arrivalRecords v ++ (Message.ofJsValue v).1.remarks) } id :=
          ⟨h.work, h.replies⟩
        refine mute_hold hlogged fun hid hop' => he hid (BackgroundEvent.asks_of_operation? ?_)
        rw [← hop', ← hop]
        rfl
      · exact ⟨h.work, h.replies⟩
    rw [step, receive_eq]
    by_cases hid : id = b.session.opened
    · exact hid ▸ mute_start (hid ▸ hreceived)
    · exact hreceived.aside (aside_start hid _)
  | answer id' stage e =>
    by_cases hid : id = id'
    · subst hid
      simp only [step, deliver]
      split
      · exact h
      · rename_i f hf
        split
        · rename_i hp
          exact mute_pursue 3 (mute_carryOn hf hp h)
        · exact h
    · exact h.aside (aside_deliver hid b stage e)
  | outside change => exact ⟨h.work, h.replies⟩

/-! ### Flights that owe one -/

/-- The flight waits for its query and its sender was told nothing; or the query has said something,
and its sender was told what it said first, and no more. -/
def Standing (b : Background (Noted β)) (id : Nat) (said : List CallEvent) : Prop :=
  match said.head? with
  | none => (∃ f, b.session.flight? id = some f ∧ f.progress = .waiting .askingRewards) ∧
      b.repliesTo id = []
  | some e => b.session.flight? id = none ∧
      b.repliesTo id = [.object [("enabled", .bool e.saysEnabled)]]

omit [Host β] in
lemma Standing.aside {b b' : Background (Noted β)} {id : Nat} {said : List CallEvent}
    (h : Standing b id said) (ha : Aside id b b') : Standing b' id said := by
  unfold Standing at h ⊢
  rw [ha.flight, ha.replies]
  exact h

omit [Host β] in
lemma Standing.repliesTo {b : Background (Noted β)} {id : Nat} {said : List CallEvent}
    (h : Standing b id said) : b.repliesTo id =
      said.head?.toList.map fun e => .object [("enabled", .bool e.saysEnabled)] := by
  unfold Standing at h
  split at h
  · rename_i hs
    simpa [hs] using h.2
  · rename_i e hs
    simpa [hs] using h.2

/-- The first event of the query ends the flight with the reply. -/
lemma standing_carryOn {b : Background (Noted β)} {id : Nat} {f : Flight}
    (hf : b.session.flight? id = some f) (hr : b.repliesTo id = []) (e : CallEvent)
    (rest : List CallEvent) :
    Standing
      (b.carryOn f .askingRewards (outcome Stage.askingRewards.request e.settlement)) id
      (e :: rest) := by
  have hid : id = f.id := (Session.mem_of_flight? hf).2.symm
  have hnext := resume_askingRewards b.session.config e
  refine ⟨?_, ?_⟩
  · rw [flight?_carryOn, if_pos hid, hnext]
    rfl
  · rw [repliesTo_carryOn, if_pos hid, hnext, hr]
    rfl

lemma standing_pursue {b : Background (Noted β)} {id : Nat} {f : Flight}
    (hf : b.session.flight? id = some f) (hp : f.progress = .waiting .askingRewards)
    (hr : b.repliesTo id = []) (answers : Nat) :
    Standing (pursue id (answers + 1) b) id
      (Host.invoke ⟨.getRewardsMainEnabled, []⟩ b.session.host.browser).1 := by
  simp only [pursue, hf, hp]
  cases hi : Host.invoke ⟨.getRewardsMainEnabled, []⟩ b.session.host.browser with
  | mk events browser =>
    have hask : ask Stage.askingRewards.request b.session.host =
        ((firstSettlement events).map (outcome Stage.askingRewards.request),
          { b.session.host with browser }) := by
      simp [ask, Host.invoke, Stage.request, invocation, hi]
    rw [hask]
    cases events with
    | nil => exact ⟨⟨f, hf, hp⟩, hr⟩
    | cons e rest =>
      have hsettled := standing_carryOn
        (b := { b with session := { b.session with host := { b.session.host with browser } } })
        hf hr e rest
      simp only [firstSettlement, List.head?_cons, Option.map_some]
      rw [pursue_of_none hsettled.1]
      exact hsettled

/-- Who asks is told what the query says first, if it says so at once. -/
lemma standing_asked {b : Background (Noted β)} {v : JsValue}
    (hv : (Message.ofJsValue v).1 = .rewardsEnabled)
    (hnone : b.session.flight? b.session.opened = none)
    (hr : b.repliesTo b.session.opened = []) :
    Standing (b.step (.message v)) b.session.opened
      (Host.invoke ⟨.getRewardsMainEnabled, []⟩ b.session.host.browser).1 := by
  let f : Flight := ⟨b.session.opened, b.session.current, .held .askRewards⟩
  let logged := b.session.log (arrivalRecords v ++ Message.rewardsEnabled.remarks)
  let s := logged.hold .askRewards
  have hheld : s.flight? f.id = some f := by
    have hbefore : logged.flight? f.id = none := hnone
    rw [Session.flight?_hold, hbefore, Option.none_or]
    exact if_pos rfl
  have hstart : s.start f.id = s.follow f Operation.askRewards.start := by
    simp only [Session.start, hheld, f]
  have hwait : (s.start f.id).flight? f.id =
      some { f with progress := .waiting .askingRewards } := by
    rw [hstart, Session.flight?_follow, if_pos rfl, hheld]
    rfl
  have hhost : (s.start f.id).host = b.session.host := by
    rw [hstart, Session.follow_host]
    rfl
  have hsent : repliesTo { b with session := s.start f.id } f.id = [] := by
    rw [repliesTo, sent, hhost]
    exact hr
  have hgo := standing_pursue (b := { b with session := s.start f.id }) hwait rfl hsent 2
  rw [hhost] at hgo
  rw [step, receive_eq, hv]
  exact hgo

/-- A query's first event counts, and no other event of the page does. -/
lemma standing_step {b : Background (Noted β)} {id : Nat} {said : List CallEvent}
    (h : Standing b id said) (hid : id ≠ b.session.opened) (e : BackgroundEvent β) :
    Standing (b.step e) id (said ++ (e.answerTo? id).toList) := by
  by_cases he : ∃ stage answer, e = .answer id stage answer
  · obtain ⟨stage, answer, rfl⟩ := he
    cases said with
    | nil =>
      obtain ⟨⟨f, hf, hp⟩, hr⟩ := h
      by_cases hstage : stage = .askingRewards
      · subst hstage
        have hsettled := standing_carryOn hf hr answer []
        simp only [step, deliver, hf, hp, if_true, BackgroundEvent.answerTo?,
          Option.toList_some, List.nil_append]
        rw [pursue_of_none hsettled.1]
        exact hsettled
      · have hother : f.progress ≠ .waiting stage := by
          rw [hp]
          exact fun heq => hstage (Progress.waiting.inj heq).symm
        have hno : (.answer id stage answer : BackgroundEvent β).answerTo? id = none := by
          cases stage <;> first | rfl | exact absurd rfl hstage
        simp only [step, deliver, hf, if_neg hother, hno]
        exact ⟨⟨f, hf, hp⟩, hr⟩
    | cons first rest =>
      rw [step, deliver_of_none h.1]
      exact h
  · have hno : e.answerTo? id = none := by
      cases e with
      | answer flight stage answer =>
        have hne : flight ≠ id := fun heq => he ⟨stage, answer, heq ▸ rfl⟩
        cases stage <;> simp [BackgroundEvent.answerTo?, hne]
      | _ => rfl
    rw [hno, Option.toList_none, List.append_nil]
    exact h.aside (aside_step hid fun stage answer heq => he ⟨stage, answer, heq⟩)

/-! ### Runs -/

/-- All that the browser says in the first `n` events to the query of the message that came
`k`-th. -/
def said (b : Background (Noted β)) (es : List (BackgroundEvent β)) (k n : Nat) :
    List CallEvent :=
  (Host.invoke ⟨.getRewardsMainEnabled, []⟩ (upTo step b es k).session.host.browser).1 ++
    ((es.take n).drop (k + 1)).filterMap
      (BackgroundEvent.answerTo? (upTo step b es k).session.opened)

lemma said_succ {b : Background (Noted β)} {es : List (BackgroundEvent β)} {k n : Nat}
    {e : BackgroundEvent β} (hk : k < n) (he : es[n]? = some e) :
    b.said es k (n + 1) =
      b.said es k n ++ (e.answerTo? (upTo step b es k).session.opened).toList := by
  have hn : n < es.length := (List.getElem?_eq_some_iff.mp he).1
  have hlen : k + 1 ≤ (es.take n).length := by
    rw [List.length_take]
    omega
  rw [said, said, List.take_add_one, he, Option.toList_some, List.drop_append_of_le_length hlen,
    List.filterMap_append, List.append_assoc]
  congr 2

section

variable {b : Background (Noted β)}

/-- A number is of a message that asked for the rewards, or nothing was ever sent for it. -/
lemma mute_upTo (es : List (BackgroundEvent β)) (hb : ∀ id, Mute b id) (n id : Nat) :
    Mute (upTo step b es n) id ∨
    ∃ k < n, ∃ e, es[k]? = some e ∧ e.asks ∧ (upTo step b es k).session.opened = id := by
  induction n with
  | zero => exact .inl (hb id)
  | succ n ih =>
    rcases ih with h | ⟨k, hk, hasked⟩
    · cases he : es[n]? with
      | none =>
        rw [upTo_succ_of_none b he]
        exact .inl h
      | some e =>
        by_cases hasks : id = (upTo step b es n).session.opened ∧ e.asks
        · exact .inr ⟨n, Nat.lt_succ_self n, e, he, hasks.2, hasks.1.symm⟩
        · rw [upTo_succ b he]
          exact .inl (mute_step h fun hid hask => hasks ⟨hid, hask⟩)
    · exact .inr ⟨k, by omega, hasked⟩

variable {es : List (BackgroundEvent β)}

lemma opened_of_asks {k : Nat} {e : BackgroundEvent β} (he : es[k]? = some e) (h : e.asks) :
    (upTo step b es (k + 1)).session.opened = (upTo step b es k).session.opened + 1 := by
  rw [upTo_succ b he, opened_step, BackgroundEvent.operation?_of_asks h]
  rfl

/-- A number tells the event that opened its flight. -/
lemma eq_of_opened {k j : Nat} {e : BackgroundEvent β} (he : es[k]? = some e) (h : e.asks)
    (hle : (upTo step b es j).session.opened ≤ (upTo step b es k).session.opened)
    (hlt : (upTo step b es k).session.opened < (upTo step b es (j + 1)).session.opened) :
    j = k := by
  have hopened := opened_of_asks (b := b) he h
  exact eq_of_count opened_le_step (by omega) hle hlt

/-- Whoever asked stands as its own query does, at every time after. -/
lemma standing_upTo (hfresh : Fresh b) (hmute : ∀ id, Mute b id) {k n : Nat}
    {v : JsValue} (hv : es[k]? = some (.message v))
    (hasks : (Message.ofJsValue v).1 = .rewardsEnabled) (hkn : k < n) :
    Standing (upTo step b es n) (upTo step b es k).session.opened (b.said es k n) := by
  have hask : (.message v : BackgroundEvent β).asks := decide_eq_true hasks
  have hopened := opened_of_asks (b := b) hv hask
  induction hkn with
  | refl =>
    have hfresh : Fresh (upTo step b es k) :=
      upTo_inv (P := Fresh) (fun _ e h => fresh_step h e) hfresh es k
    have hnone := hfresh _ (Nat.le_refl _)
    have hreplies : (upTo step b es k).repliesTo (upTo step b es k).session.opened = [] := by
      rcases mute_upTo es hmute k (upTo step b es k).session.opened with h |
        ⟨j, hj, e, he, hase, heq⟩
      · exact h.replies
      · have := opened_of_asks (b := b) he hase
        have := upTo_mono opened_le_step b es (show j + 1 ≤ k from hj)
        omega
    have hfirst := standing_asked hasks hnone hreplies
    have hsaid : b.said es k (k + 1) =
        (Host.invoke ⟨.getRewardsMainEnabled, []⟩ (upTo step b es k).session.host.browser).1 := by
      have hnil : (es.take (k + 1)).drop (k + 1) = [] :=
        List.drop_eq_nil_of_le (by rw [List.length_take]; omega)
      rw [said, hnil, List.filterMap_nil, List.append_nil]
    rw [upTo_succ b hv, hsaid]
    exact hfirst
  | @step n hn ih =>
    cases he : es[n]? with
    | none =>
      have hsaid : b.said es k (n + 1) = b.said es k n := by
        rw [said, said, List.take_add_one, he, Option.toList_none, List.append_nil]
      rw [upTo_succ_of_none b he, hsaid]
      exact ih
    | some e =>
      have hmono := upTo_mono opened_le_step b es (show k + 1 ≤ n from hn)
      rw [upTo_succ b he, said_succ hn he]
      exact standing_step ih (by omega) e

end

end Background

open Background

/-- **One reply to each who asks.** Take any run of a page in any browser. A listener says that a
reply will come exactly if the message asks for the rewards. Its sender is told nothing before its
own query has said something, and then what the query said first, once: whether rewards are
enabled, or that they are not if it failed or said anything but a truth value. Nothing is sent to
anyone else. Each reply that could not be sent is logged once, and none is sent again. -/
theorem replied_once {β : Type} [Host β] (settings : Option String) (browser : β)
    (es : List (BackgroundEvent β)) (n : Nat) :
    let b : Background (Noted β) := .new settings ⟨browser, []⟩
    let page := upTo Background.step b es
    (∀ k v, es[k]? = some (.message v) →
      (((page k).receive v).1 ↔ (Message.ofJsValue v).1 = .rewardsEnabled) ∧
      (((page k).receive v).1 → k < n → (page n).repliesTo (page k).session.opened =
        (b.said es k n).head?.toList.map fun e =>
          .object [("enabled", .bool e.saysEnabled)])) ∧
    (∀ s ∈ (page n).sent, ∃ k < n, (∃ v, es[k]? = some (.message v) ∧ ((page k).receive v).1) ∧
      (page k).session.opened = s.flight ∧
      ∀ j, (page j).session.opened ≤ s.flight → s.flight < (page (j + 1)).session.opened →
        j = k) ∧
    (page n).session.sendFailures = (page n).sent.filterMap Sending.record? := by
  intro b page
  have hflights : b.session.flights = [] := Session.performAll_flights ..
  have hsent : b.sent = [] := sent_setUp _
  have hfresh : Fresh b := fun id _ => by simp [Session.flight?, hflights]
  have hmute (id : Nat) : Mute b id := by
    refine ⟨fun f hf => ?_, ?_⟩
    · simp [Session.flight?, hflights] at hf
    · simp [repliesTo, hsent]
  have hkeeps (k : Nat) (v : JsValue) :
      ((page k).receive v).1 ↔ (Message.ofJsValue v).1 = .rewardsEnabled := by
    rw [receive_eq]
    cases (Message.ofJsValue v).1 <;> simp [Message.keepsOpen]
  refine ⟨fun k v hv => ⟨hkeeps k v, fun hopen hkn => ?_⟩, fun s hs => ?_, ?_⟩
  · exact (standing_upTo hfresh hmute hv ((hkeeps k v).mp hopen) hkn).repliesTo
  · rcases mute_upTo es hmute n s.flight with h | ⟨k, hk, e, he, hasks, heq⟩
    · have hmem : s.value ∈ (page n).repliesTo s.flight :=
        List.mem_map_of_mem (List.mem_filter.mpr ⟨hs, by simp⟩)
      rw [h.replies] at hmem
      cases hmem
    · refine ⟨k, hk, ?_, heq, fun j hle hlt => ?_⟩
      · cases e with
        | message v => exact ⟨v, he, (hkeeps k v).mpr (of_decide_eq_true hasks)⟩
        | _ => cases hasks
      · exact eq_of_opened he hasks (heq ▸ hle) (heq ▸ hlt)
  · have hbooked : Booked (page n) :=
      upTo_inv (P := Booked) (fun _ e h => booked_step h e) (booked_new settings browser) es n
    exact hbooked.failures

/-- A browser that answers no call at once. The first of the senders has gone. -/
inductive LateBrowser where
  | late

instance : Host LateBrowser where
  invoke _ b := ([], b)
  call _ b := (.ok (), b)
  reply id _ b := (if id = 0 then .error (.string "port closed") else .ok (), b)

/-- Two senders ask. The second one's query is answered first, the first one's fails, and the reply
to that one cannot be sent. -/
theorem replied_once_crosswise :
    let b : Background (Noted LateBrowser) := .new none ⟨.late, []⟩
    let es : List (BackgroundEvent LateBrowser) :=
      [.message (.string "rewardsEnabled"), .message (.string "rewardsEnabled"),
        .answer 1 .askingRewards (.calledBack (.bool true) (.object [])), .runtime .connect,
        .answer 0 .askingRewards (.threw (.string "no wallet"))]
    ((upTo step b es 0).receive (.string "rewardsEnabled")).1 ∧
      ((upTo step b es 1).receive (.string "rewardsEnabled")).1 ∧
      (upTo step b es 4).repliesTo 0 = [] ∧
      (upTo step b es 5).repliesTo 0 = [.object [("enabled", .bool false)]] ∧
      (upTo step b es 5).repliesTo 1 = [.object [("enabled", .bool true)]] ∧
      (upTo step b es 5).session.sendFailures =
        [⟨.warn, "Failed to send response: JsValue(\"port closed\")"⟩] := by
  intro b es
  obtain ⟨h₄, -, -⟩ := replied_once none LateBrowser.late es 4
  obtain ⟨h₅, -, hlogged⟩ := replied_once none LateBrowser.late es 5
  have hfirst : ((upTo step b es 0).receive (.string "rewardsEnabled")).1 := (h₄ 0 _ rfl).1.mpr rfl
  have hsecond : ((upTo step b es 1).receive (.string "rewardsEnabled")).1 := (h₄ 1 _ rfl).1.mpr rfl
  refine ⟨hfirst, hsecond, ?_, ?_, ?_, ?_⟩
  · exact (h₄ 0 _ rfl).2 hfirst (by decide)
  · exact (h₅ 0 _ rfl).2 hfirst (by decide)
  · exact (h₅ 1 _ rfl).2 hsecond (by decide)
  · rw [hlogged]
    decide +kernel

end Tipping
