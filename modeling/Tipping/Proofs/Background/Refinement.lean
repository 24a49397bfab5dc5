import Tipping.Notification.Bench
import Tipping.Proofs.Background.Chrome
import Tipping.Proofs.Background.Ledger
import Tipping.Proofs.Json.Printing
import Tipping.Proofs.Notification.Abreast

/-!
A page in a reliable browser does what a controller over hosts in memory does.

Both get the same events, each settled before the next. The flight that an event opens goes through
the same stages on both sides: one call of the browser for each request of the memory, until it is
over. No event makes the same call twice, so refusals that are planned between events give every
pattern of refused calls.
-/

namespace Tipping

open Browser Notification

/-- A message with a JSON text is read by that text. -/
lemma Message.ofJsValue_of_text {v : JsValue} {text : String}
    (h : v.stringify = .ok (some text)) : Message.ofJsValue v = Message.ofText text := by
  cases v with
  | undefined => cases h
  | null =>
    have htext : text = String.ofList (Json.ParseTree.null).text := by cases h; rfl
    rw [htext, Message.ofText, Json.ofText_tree (t := .null) (v := .null) trivial rfl]
    rfl
  | string s =>
    have htext : text = String.ofList (Json.ParseTree.string (some s)).text := by cases h; rfl
    rw [htext, Message.ofText, Json.ofText_tree (t := .string (some s)) (v := .string s) rfl rfl]
    rfl
  | _ => simp only [Message.ofJsValue, h, Option.getD_some]

/-- A message with a JSON text. -/
structure JsonMessage where
  value : JsValue
  text : String
  written : value.stringify = .ok (some text)

/-- What happens on both sides. -/
inductive Occurrence where
  | load
  | runtime (e : RuntimeEvent)
  | message (m : JsonMessage)
  | outside (c : Change)

/-- A bench that is not in manual mode lets each operation run to its end. -/
def Notification.Bench.undergo (b : Bench) : Occurrence → Bench
  | .load => ((b.step .restart).1.step .setUp).1
  | .runtime e => (b.step (.operate e.operation true)).1
  | .message m => (b.step (.receive (Message.ofText m.text).1 (Message.ofText m.text).2 true)).1
  | .outside c => (b.step (.outside c)).1

lemma notices_deeds (as : List Action) :
    (as.filter Action.isDeed).filterMap Action.notice? = as.filterMap Action.notice? := by
  induction as with
  | nil => rfl
  | cons a as ih =>
    cases a <;>
      simpa [List.filter_cons, List.filterMap_cons, Action.isDeed, Action.notice?] using ih

def Notification.Mark.reply? : Mark → Option (Nat × RewardsReply)
  | .finished flight (some r) => some (flight, r)
  | _ => none

/-- Replies are among the marks. -/
lemma Notification.Session.replies_eq_marks {η : Type} (s : Session η) :
    s.replies = s.marks.filterMap Mark.reply? := by
  rw [Session.replies, Session.marks, List.filterMap_filterMap]
  congr 1
  funext e
  cases e with
  | finished flight reply => cases reply <;> rfl
  | _ => rfl

lemma Notification.Session.Abreast.replies {η η' : Type} {s : Session η} {s' : Session η'}
    (h : s.Abreast s') : s.replies = s'.replies := by
  rw [s.replies_eq_marks, s'.replies_eq_marks, h.marks]

/-! ### Sessions -/

/-- The sessions are abreast, and the browser of the one keeps what the memory of the other does. -/
structure Mirrors {β : Type} [Kept β] (s : Session (Noted β)) (s' : Session Memory) : Prop where
  abreast : s.Abreast s'
  memory : Kept.memory s.host.browser = s'.host

namespace Mirrors

variable {β : Type} [Kept β] {s : Session (Noted β)} {s' : Session Memory}

lemma notices (hβ : Reliable β) (ns : List Notice) (h : Noted β) :
    Kept.memory (ns.foldl (fun h n => (Notified.notify n h).2) h).browser =
      ns.foldl (fun m n => (Notified.notify n m).2) (Kept.memory h.browser) := by
  induction ns generalizing h with
  | nil => rfl
  | cons n ns ih =>
    have hn : Kept.memory (Notified.notify n h).2.browser =
        (Notified.notify n (Kept.memory h.browser)).2 := hβ.notify n h.browser
    rw [List.foldl_cons, ih, hn, List.foldl_cons]

lemma follow (hβ : Reliable β) (h : Mirrors s s') (f : Flight) {t t' : Stretch}
    (ht : t.deeds = t'.deeds) : Mirrors (s.follow f t) (s'.follow f t') := by
  refine ⟨h.abreast.follow f ht, ?_⟩
  have hnotices : t.actions.filterMap Action.notice? = t'.actions.filterMap Action.notice? := by
    have hdeeds : t.actions.filter Action.isDeed = t'.actions.filter Action.isDeed :=
      congrArg Stretch.actions ht
    rw [← notices_deeds, hdeeds, notices_deeds]
  rw [Session.follow_host, Session.follow_host, notices hβ, h.memory, hnotices]

lemma setUp (hβ : Reliable β) (h : Mirrors s s') : Mirrors s.setUp s'.setUp := by
  refine ⟨h.abreast.setUp, ?_⟩
  rw [Session.setUp, Session.setUp, Session.performAll_host, Session.performAll_host,
    notices hβ, h.memory, h.abreast.config]

lemma log_left (h : Mirrors s s') (rs : List LogRecord) : Mirrors (s.log rs) s' :=
  ⟨h.abreast.log_left rs, h.memory⟩

lemma hold (h : Mirrors s s') (op : Operation) : Mirrors (s.hold op) (s'.hold op) :=
  ⟨h.abreast.hold op, h.memory⟩

lemma receive (h : Mirrors s s') (m : Message) (rs rs' : List LogRecord) :
    Mirrors (s.receive m rs) (s'.receive m rs') := by
  have habreast := h.abreast.receive m rs rs'
  have hhost : (s.receive m rs).host = s.host ∧ (s'.receive m rs').host = s'.host := by
    simp only [Session.receive]
    split <;> exact ⟨rfl, rfl⟩
  exact ⟨habreast, by rw [hhost.1, hhost.2, h.memory]⟩

/-- A call of the browser carries a flight on to where the memory's answer does. -/
lemma settle (hβ : Reliable β) (h : Mirrors s s') (f : Flight) (stage : Stage) :
    Mirrors
      (Session.settle
        { s with host :=
          { s.host with browser := (ending (invocation stage.request) s.host.browser).2 } }
        f stage
        (outcome stage.request (ending (invocation stage.request) s.host.browser).1.settlement))
      (Session.settle { s' with host := (Memory.answer stage.request s'.host).2 } f stage
        (Memory.answer stage.request s'.host).1) := by
  obtain ⟨hmemory, houtcome⟩ := hβ.outcome stage.request s.host.browser
  rw [h.memory] at hmemory houtcome
  have hcalled : Mirrors
      { s with host :=
        { s.host with browser := (ending (invocation stage.request) s.host.browser).2 } }
      { s' with host := (Memory.answer stage.request s'.host).2 } :=
    ⟨h.abreast.host _ _, hmemory⟩
  have hnoted (o o' : stage.request.Outcome) : Mirrors
      (Session.note
        { s with host :=
          { s.host with browser := (ending (invocation stage.request) s.host.browser).2 } }
        (.answered f.id stage.request o))
      (Session.note { s' with host := (Memory.answer stage.request s'.host).2 }
        (.answered f.id stage.request o')) :=
    ⟨hcalled.abreast.note _ _ rfl, hcalled.memory⟩
  have hdeeds :
      (stage.resume s.config (outcome stage.request
        (ending (invocation stage.request) s.host.browser).1.settlement)).deeds =
      (stage.resume s'.config (Memory.answer stage.request s'.host).1).deeds := by
    rw [h.abreast.config]
    rcases houtcome with ⟨e, e', he, he'⟩ | heq
    · rw [he, he']
      exact deeds_resume_refused s'.config stage e e'
    · rw [heq]
  exact (hnoted _ _).follow hβ f hdeeds

end Mirrors

/-! ### Pages -/

namespace Background

variable {β : Type} [Kept β]

def withBrowser (b : Background (Noted β)) (browser : β) : Background (Noted β) :=
  { b with session := { b.session with host := { b.session.host with browser } } }

/-- The browser ends each call that the flight left open, until the flight is over. -/
def drain (id : Nat) : Nat → Background (Noted β) → Background (Noted β)
  | 0, b => b
  | calls + 1, b =>
    match b.session.flight? id with
    | none => b
    | some f =>
      match f.progress with
      | .held _ => b
      | .waiting stage =>
        let (e, browser) := Kept.settle (invocation stage.request) b.session.host.browser
        drain id calls ((b.withBrowser browser).deliver id stage e)

/-- The event, and all calls that come of it. -/
def undergo (b : Background (Noted β)) (o : Occurrence) : Background (Noted β) :=
  drain b.session.opened 3 <| b.step <|
    match o with
    | .load => .reload
    | .runtime e => .runtime e
    | .message m => .message m.value
    | .outside c => .outside (Kept.change c)

/-- What every step of the flight keeps, the browser's answers to it keep. -/
lemma drain_induct {P : Background (Noted β) → Prop} {id : Nat}
    (hsettle : ∀ b browser, P b → P (b.withBrowser browser))
    (hdeliver : ∀ b stage e, P b → P (b.deliver id stage e)) (calls : Nat)
    {b : Background (Noted β)} (h : P b) : P (drain id calls b) := by
  induction calls generalizing b with
  | zero => exact h
  | succ n ih =>
    simp only [drain]
    split
    · exact h
    · split
      · exact h
      · rename_i stage _
        exact ih (hdeliver _ stage _ (hsettle b _ h))

lemma drain_of_none {b : Background (Noted β)} {id : Nat} (h : b.session.flight? id = none)
    (calls : Nat) : drain id calls b = b := by
  cases calls with
  | zero => rfl
  | succ n => simp [drain, h]

lemma aside_drain {id id' : Nat} (h : id ≠ id') (calls : Nat) (b : Background (Noted β)) :
    Aside id b (drain id' calls b) :=
  drain_induct (P := Aside id b) (fun _ _ hb => ⟨hb.flight, hb.replies⟩)
    (fun _ stage e hb => hb.trans (aside_deliver h _ stage e)) calls ⟨rfl, rfl⟩

lemma booked_undergo {b : Background (Noted β)} (h : Booked b) (o : Occurrence) :
    Booked (b.undergo o) :=
  drain_induct (P := Booked) (fun _ _ h => h.of_eq rfl rfl rfl h.accounted)
    (fun _ stage e h => booked_deliver h _ stage e) 3 (booked_step h _)

/-- The outcome of the call that a stage makes, by its first event. -/
def firstOutcome (b : Background (Noted β)) (stage : Stage) : stage.request.Outcome :=
  outcome stage.request (ending (invocation stage.request) b.session.host.browser).1.settlement

/-- The flight goes on with the first event of its call. -/
def advance (b : Background (Noted β)) (f : Flight) (stage : Stage) : Background (Noted β) :=
  (b.withBrowser (ending (invocation stage.request) b.session.host.browser).2).carryOn f stage
    (b.firstOutcome stage)

lemma flight?_advance {b : Background (Noted β)} {id : Nat} {f : Flight}
    (hf : b.session.flight? id = some f) (stage : Stage) :
    (b.advance f stage).session.flight? id =
      (stage.resume b.session.config (b.firstOutcome stage)).next.stage?.map fun stage =>
        { f with progress := .waiting stage } := by
  have hid : id = f.id := (Session.mem_of_flight? hf).2.symm
  have hcalled (browser : β) : (b.withBrowser browser).session.flight? id = some f ∧
      (b.withBrowser browser).session.config = b.session.config := ⟨hf, rfl⟩
  rw [advance, flight?_carryOn, if_pos hid, (hcalled _).1, (hcalled _).2]
  cases (stage.resume b.session.config (b.firstOutcome stage)).next.stage? <;> rfl

/-- Whether its call settles at once or later, the flight goes on with the first event. -/
lemma drain_pursue {b : Background (Noted β)} {id : Nat} {f : Flight} {stage : Stage}
    (hf : b.session.flight? id = some f) (hp : f.progress = .waiting stage)
    (calls answers : Nat) : ∃ calls' answers', calls ≤ calls' ∧ min answers 3 ≤ answers' ∧
      drain id (calls + 1) (pursue id (answers + 1) b) =
        drain id calls' (pursue id answers' (b.advance f stage)) := by
  simp only [pursue, hf, hp, ask]
  cases hi : Host.invoke (invocation stage.request) b.session.host.browser with
  | mk events browser =>
    have hinvoke : Host.invoke (invocation stage.request) b.session.host =
        (events, { b.session.host with browser }) := by
      simp [Host.invoke, hi]
    rw [hinvoke]
    cases events with
    | cons e rest =>
      have hend : ending (invocation stage.request) b.session.host.browser = (e, browser) := by
        simp [ending, hi]
      refine ⟨calls + 1, answers, by omega, by omega, ?_⟩
      rw [advance, firstOutcome, hend]
      rfl
    | nil =>
      have hend : ending (invocation stage.request) b.session.host.browser =
          Kept.settle (invocation stage.request) browser := by
        simp [ending, hi]
      have hflight : (b.withBrowser browser).session.flight? id = some f := hf
      refine ⟨calls, 3, by omega, by omega, ?_⟩
      show drain id (calls + 1) (b.withBrowser browser) = _
      cases hs : Kept.settle (invocation stage.request) browser with
      | mk e settled =>
        have hs' : Kept.settle (invocation stage.request)
            (b.withBrowser browser).session.host.browser = (e, settled) := hs
        have hflight' : ((b.withBrowser browser).withBrowser settled).session.flight? id =
            some f := hf
        rw [advance, firstOutcome, hend, hs]
        simp only [drain, hflight, hp, hs', deliver, hflight', if_true]
        rfl

lemma memory_carryOn (hβ : Reliable β) (b : Background (Noted β)) (f : Flight) (stage : Stage)
    (o : stage.request.Outcome) : Kept.memory (b.carryOn f stage o).session.host.browser =
      Kept.memory (b.session.settle f stage o).host.browser := by
  simp only [carryOn, sendReply]
  split
  · rfl
  · rename_i id r _
    have hreply := hβ.reply id (replyValue r) (b.session.settle f stage o).host.browser
    split <;> exact hreply

end Background

open Background

/-- The page does what the controller on the bench does. -/
structure Refines {β : Type} [Kept β] (b : Background (Noted β)) (m : Bench) : Prop where
  mirrors : Mirrors b.session m.session
  config : (Config.load b.settings).config = m.session.config
  driven : m.manual = false

namespace Refines

variable {β : Type} [Kept β] {b : Background (Noted β)} {m : Bench}

/-- One call of the browser, and one answer of the memory. -/
lemma advance (hβ : Reliable β) (h : Refines b m) {id : Nat} {f : Flight} {stage : Stage}
    (hf : b.session.flight? id = some f) (hp : f.progress = .waiting stage) :
    Refines (b.advance f stage) (m.after (.resume id)) := by
  have hf' : m.session.flight? id = some f := h.mirrors.abreast.flight? id ▸ hf
  have hsettled := h.mirrors.settle hβ f stage
  obtain ⟨sendings, -, browser, replies, hb⟩ :=
    carryOn_eq (b.withBrowser (ending (invocation stage.request) b.session.host.browser).2) f stage
      (b.firstOutcome stage)
  have hafter : (m.after (.resume id)).session =
      Session.settle { m.session with host := (Memory.answer stage.request m.session.host).2 } f
        stage (Memory.answer stage.request m.session.host).1 := Session.step_resume hf' hp
  refine ⟨⟨?_, ?_⟩, ?_, h.driven⟩
  · rw [hafter, Background.advance, hb]
    exact (hsettled.abreast.host _ _).log_left _
  · rw [hafter, Background.advance, memory_carryOn hβ]
    exact hsettled.memory
  · have hkept : (m.after (.resume id)).session.config = m.session.config :=
      Session.step_config ..
    rw [hkept, Background.advance, hb]
    exact h.config

lemma pursue_of_over {m : Bench} {id : Nat} (h : m.session.flight? id = none) (replies : Nat) :
    m.pursue id replies = m := by
  cases replies with
  | zero => rfl
  | succ n => simp [Bench.pursue, Bench.waiting?, h]

/-- A flight that waits comes to its end on both sides. -/
lemma finish (hβ : Reliable β) {id : Nat} (left : Nat) (hleft : left ≤ 3) {f : Flight}
    {stage : Stage} (hstage : stage.answersLeft ≤ left) {calls answers replies : Nat}
    (hcalls : left ≤ calls) (hanswers : left ≤ answers) (hreplies : left ≤ replies)
    (h : Refines b m) (hf : b.session.flight? id = some f) (hp : f.progress = .waiting stage) :
    Refines (drain id calls (Background.pursue id answers b)) (m.pursue id replies) ∧
      (drain id calls (Background.pursue id answers b)).session.flight? id = none := by
  induction left generalizing b m f stage calls answers replies with
  | zero =>
    have hpos : 0 < stage.answersLeft := by cases stage <;> simp [Stage.answersLeft]
    omega
  | succ left ih =>
    obtain ⟨calls, rfl⟩ : ∃ n, calls = n + 1 := ⟨calls - 1, by omega⟩
    obtain ⟨answers, rfl⟩ : ∃ n, answers = n + 1 := ⟨answers - 1, by omega⟩
    obtain ⟨replies, rfl⟩ : ∃ n, replies = n + 1 := ⟨replies - 1, by omega⟩
    obtain ⟨calls', answers', hcalls', hanswers', heq⟩ := drain_pursue hf hp calls answers
    have hnext := h.advance hβ hf hp
    have hbench : m.pursue id (replies + 1) = (m.after (.resume id)).pursue id replies := by
      have hf' : m.session.flight? id = some f := h.mirrors.abreast.flight? id ▸ hf
      simp [Bench.pursue, Bench.waiting?, hf', hp, h.driven]
    have hflight := flight?_advance hf stage
    rw [heq, hbench]
    cases hn : (stage.resume b.session.config (b.firstOutcome stage)).next with
    | finished reply =>
      have hnone : (b.advance f stage).session.flight? id = none := by
        rw [hflight, hn]
        rfl
      have hnone' : (m.after (.resume id)).session.flight? id = none :=
        hnext.mirrors.abreast.flight? id ▸ hnone
      rw [pursue_of_none hnone, drain_of_none hnone, pursue_of_over hnone']
      exact ⟨hnext, hnone⟩
    | awaiting stage' =>
      have hgoes : (b.advance f stage).session.flight? id =
          some { f with progress := .waiting stage' } := by
        rw [hflight, hn]
        rfl
      have hlater := Stage.answersLeft_resume hn
      exact ih (by omega) (by omega) (by omega) (by omega) (by omega) hnext hgoes rfl

/-- A flight that is held is started, and comes to its end, on both sides. -/
lemma start (hβ : Reliable β) {id : Nat} {f : Flight} {op : Operation} (h : Refines b m)
    (hf : b.session.flight? id = some f) (hp : f.progress = .held op) :
    Refines (drain id 3 (b.start id)) (m.start id) ∧
      (drain id 3 (b.start id)).session.flight? id = none := by
  have hid : id = f.id := (Session.mem_of_flight? hf).2.symm
  have hf' : m.session.flight? id = some f := h.mirrors.abreast.flight? id ▸ hf
  have hstart : b.session.start id = b.session.follow f op.start := by
    simp [Session.start, hf, hp]
  have hstart' : m.session.start id = m.session.follow f op.start := by
    simp [Session.start, hf', hp]
  let b₁ : Background (Noted β) := { b with session := b.session.follow f op.start }
  let m₁ : Bench := { m with session := m.session.follow f op.start }
  have hfollowed : Refines b₁ m₁ :=
    ⟨h.mirrors.follow hβ f rfl, h.config.trans (Session.follow_config ..).symm, h.driven⟩
  have hpage : b.start id = Background.pursue id 3 b₁ := by
    rw [Background.start, hstart]
  have hbench : m.start id = m₁.pursue id 3 := by
    simp only [Bench.start, Bench.after, Session.step, hstart', Bench.mostAnswers, m₁]
  have hflight : b₁.session.flight? id = op.start.next.stage?.map fun stage =>
      { f with progress := .waiting stage } := by
    rw [Session.flight?_follow, if_pos hid, hf]
    cases op.start.next.stage? <;> rfl
  rw [hpage, hbench]
  cases hn : op.start.next with
  | finished reply =>
    have hnone : b₁.session.flight? id = none := by
      rw [hflight, hn]
      rfl
    have hnone' : m₁.session.flight? id = none := hfollowed.mirrors.abreast.flight? id ▸ hnone
    rw [pursue_of_none hnone, drain_of_none hnone, pursue_of_over hnone']
    exact ⟨hfollowed, hnone⟩
  | awaiting stage =>
    have hwaits : b₁.session.flight? id = some { f with progress := .waiting stage } := by
      rw [hflight, hn]
      rfl
    have hleft : stage.answersLeft ≤ 3 := by cases stage <;> simp [Stage.answersLeft]
    exact hfollowed.finish hβ 3 (by omega) hleft (by omega) (by omega) (by omega) hwaits rfl

lemma setUp (hβ : Reliable β)
    (h : Mirrors { b.session with config := (Config.load b.settings).config } m.session)
    (hm : m.manual = false) : Refines b.setUp (m.after .setUp) := by
  have hloaded := h.log_left (Config.load b.settings).records
  have hready := (hloaded.setUp hβ).log_left
    [⟨.info, "🚀 Rewards background initialized (Rust core)"⟩]
  have hconfig : (m.after .setUp).session.config = m.session.config :=
    Session.performAll_config ..
  exact ⟨hready, h.abreast.config.trans hconfig.symm, hm⟩

end Refines

/-! ### Runs -/

section

variable {β : Type} [Kept β]

/-- An event that opens no flight, or one that comes to its end: none is left. -/
lemma flights_undergo {b : Background (Noted β)} (hb : b.session.flights = []) {o : Occurrence}
    (h : (b.undergo o).session.flight? b.session.opened = none) :
    (b.undergo o).session.flights = [] := by
  have hnone (id : Nat) : (b.undergo o).session.flight? id = none := by
    by_cases hid : id = b.session.opened
    · rw [hid]
      exact h
    · have hbefore : b.session.flight? id = none := by simp [Session.flight?, hb]
      have hstep : Aside id b (b.undergo o) := by
        refine Aside.trans (aside_step hid fun stage answer => ?_) (aside_drain hid 3 _)
        cases o <;> simp
      exact hstep.flight.trans hbefore
  refine List.eq_nil_iff_forall_not_mem.mpr fun f hf => ?_
  have hfound := List.find?_eq_none.mp (hnone f.id) f hf
  simp at hfound

/-- A flight that was just held comes to its end on both sides. -/
lemma refines_held (hβ : Reliable β) {b : Background (Noted β)} {m : Bench} (h : Refines b m)
    (hb : b.session.flights = []) (op : Operation) :
    let held : Background (Noted β) := { b with session := b.session.hold op }
    let bench := ((m.after (.hold op)).startNew m.session.opened true).1
    Refines (drain b.session.opened 3 (held.start b.session.opened)) bench ∧
      (drain b.session.opened 3 (held.start b.session.opened)).session.flight?
        b.session.opened = none := by
  intro held bench
  have hbefore : b.session.flight? b.session.opened = none := by simp [Session.flight?, hb]
  have hflight : held.session.flight? b.session.opened =
      some ⟨b.session.opened, b.session.current, .held op⟩ := by
    rw [Session.flight?_hold, hbefore, Option.none_or, if_pos rfl]
  have hheld : Refines held (m.after (.hold op)) := ⟨h.mirrors.hold op, h.config, h.driven⟩
  have hnew : m.session.opened < (m.after (.hold op)).session.opened := Nat.lt_succ_self _
  have hbench : bench = (m.after (.hold op)).start b.session.opened := by
    rw [h.mirrors.abreast.opened]
    simp [bench, Bench.startNew, hnew]
  rw [hbench]
  exact hheld.start hβ hflight rfl

lemma refines_load (hβ : Reliable β) {b : Background (Noted β)} {m : Bench} (h : Refines b m)
    (hnone : b.session.flight? b.session.opened = none) :
    Refines (b.undergo .load) (m.undergo .load) ∧
      (b.undergo .load).session.flight? b.session.opened = none := by
  have hrestarted : Mirrors
      { b.session.restart with config := (Config.load b.settings).config }
      (m.after .restart).session := by
    have hconfig : (Config.load b.settings).config = b.session.config :=
      h.config.trans h.mirrors.abreast.config.symm
    rw [hconfig]
    exact ⟨h.mirrors.abreast.restart, h.mirrors.memory⟩
  have hrenewed : b.renew.session.flight? b.session.opened = none :=
    (aside_setUp _ _).flight.trans hnone
  have hpage : b.undergo .load = b.renew := drain_of_none hrenewed 3
  rw [hpage]
  exact ⟨Refines.setUp hβ hrestarted h.driven, hrenewed⟩

/-- Both sides read the same message; it opens a flight on both or on neither. -/
lemma refines_message (hβ : Reliable β) {b : Background (Noted β)} {m : Bench} (h : Refines b m)
    (hb : b.session.flights = []) (v : JsonMessage) :
    Refines (b.undergo (.message v)) (m.undergo (.message v)) ∧
      (b.undergo (.message v)).session.flight? b.session.opened = none := by
  have hread := Message.ofJsValue_of_text v.written
  let message := (Message.ofText v.text).1
  let rs := arrivalRecords v.value ++ message.remarks
  let rs' := (Message.ofText v.text).2 ++ message.remarks
  let logged : Background (Noted β) := { b with session := b.session.log rs }
  let bench : Bench := { m with session := m.session.log rs' }
  have hlogged : Refines logged bench :=
    ⟨⟨h.mirrors.abreast.log rs rs', h.mirrors.memory⟩, h.config, h.driven⟩
  have hpage : b.undergo (.message v) = drain b.session.opened 3
      (Background.start
        { b with session := b.session.receive message (arrivalRecords v.value) }
        b.session.opened) := by
    show drain b.session.opened 3 (b.receive v.value).2 = _
    rw [receive_eq, hread]
  have hbench : m.undergo (.message v) = ((m.after
      (.receive message (Message.ofText v.text).2)).startNew m.session.opened true).1 := rfl
  rw [hpage, hbench]
  cases hop : message.operation? with
  | some op =>
    have hpage : b.session.receive message (arrivalRecords v.value) =
        logged.session.hold op := by
      simp only [Session.receive, hop]
      rfl
    have hbench : m.after (.receive message (Message.ofText v.text).2) =
        bench.after (.hold op) := by
      simp only [Bench.after, Session.step, Session.receive, hop]
      rfl
    rw [hpage, hbench]
    exact refines_held hβ hlogged hb op
  | none =>
    have hpage : b.session.receive message (arrivalRecords v.value) = logged.session := by
      simp only [Session.receive, hop]
      rfl
    have hbench : m.after (.receive message (Message.ofText v.text).2) = bench := by
      simp only [Bench.after, Session.step, Session.receive, hop]
      rfl
    have hnone : logged.session.flight? b.session.opened = none := by
      simp [logged, Session.log, Session.flight?, hb]
    have hstart : logged.start b.session.opened = logged := start_of_none hnone
    have hold : ¬ m.session.opened < bench.session.opened := Nat.lt_irrefl _
    have hlast : (bench.startNew m.session.opened true).1 = bench := by
      simp [Bench.startNew, hold]
    rw [hpage, hbench, hlast]
    show Refines (drain b.session.opened 3 (logged.start b.session.opened)) bench ∧ _
    rw [hstart, drain_of_none hnone]
    exact ⟨hlogged, hnone⟩

/-- What others do to the browser, they do to the memory. -/
lemma refines_outside (hβ : Reliable β) {b : Background (Noted β)} {m : Bench} (h : Refines b m)
    (hnone : b.session.flight? b.session.opened = none) (c : Change) :
    Refines (b.undergo (.outside c)) (m.undergo (.outside c)) ∧
      (b.undergo (.outside c)).session.flight? b.session.opened = none := by
  let changed := b.withBrowser (Kept.change c b.session.host.browser)
  have hmemory : Kept.memory (Kept.change c b.session.host.browser) =
      c.apply m.session.host := by
    rw [hβ.change, h.mirrors.memory]
  have hkept : changed.session.flight? b.session.opened = none := hnone
  have hpage : b.undergo (.outside c) = changed := drain_of_none hkept 3
  rw [hpage]
  exact ⟨⟨⟨h.mirrors.abreast.host _ _, hmemory⟩, h.config, h.driven⟩, hnone⟩

/-- One event, settled before the next. -/
lemma refines_undergo (hβ : Reliable β) {b : Background (Noted β)} {m : Bench} (h : Refines b m)
    (hb : b.session.flights = []) (o : Occurrence) :
    Refines (b.undergo o) (m.undergo o) ∧ (b.undergo o).session.flights = [] := by
  have hnone : b.session.flight? b.session.opened = none := by simp [Session.flight?, hb]
  have hevent : Refines (b.undergo o) (m.undergo o) ∧
      (b.undergo o).session.flight? b.session.opened = none := by
    cases o with
    | load => exact refines_load hβ h hnone
    | runtime e => exact refines_held hβ h hb e.operation
    | message v => exact refines_message hβ h hb v
    | outside c => exact refines_outside hβ h hnone c
  exact ⟨hevent.1, flights_undergo hb hevent.2⟩

lemma refines_run (hβ : Reliable β) (os : List Occurrence) {b : Background (Noted β)} {m : Bench}
    (h : Refines b m) (hb : b.session.flights = []) (hbooked : Booked b) :
    Refines (os.foldl Background.undergo b) (os.foldl Bench.undergo m) ∧
      (os.foldl Background.undergo b).session.flights = [] ∧
      Booked (os.foldl Background.undergo b) := by
  induction os generalizing b m with
  | nil => exact ⟨h, hb, hbooked⟩
  | cons o os ih =>
    obtain ⟨hnext, hover⟩ := refines_undergo hβ h hb o
    exact ih hnext hover (booked_undergo hbooked o)

end

/-- **The page refines the controller.** Take any settings, any browser that can be relied on and
any events, each settled before the next. Then the page has made the same calls and been in the
same states as a controller, with the same settings and events, on a memory that was like what the
browser kept and refuses the same calls; what the browser keeps and shows is what the memory does;
the senders were given the same replies; and each operation has come to its end. -/
theorem page_refines_controller {β : Type} [Kept β] (hβ : Reliable β) (settings : Option String)
    (browser : β) (os : List Occurrence) :
    let page := os.foldl Background.undergo (.new settings ⟨browser, []⟩)
    let controller : Session Memory := .new (Config.load settings).config (Kept.memory browser)
    let bench := os.foldl Bench.undergo ((Bench.new controller).step .setUp).1
    page.session.Abreast bench.session ∧
      page.session.state = bench.session.state ∧
      Kept.memory page.session.host.browser = bench.session.host ∧
      page.sent.map (fun s => (s.flight, s.value)) =
        bench.session.replies.map (fun (id, r) => (id, .object [("enabled", .bool r.enabled)])) ∧
      page.session.flights = [] ∧
      ∀ id < page.session.opened, ∃ reply, .finished id reply ∈ page.session.trace := by
  intro page controller bench
  have hstart : Mirrors
      { Session.new .initial (⟨browser, []⟩ : Noted β) with
        config := (Config.load settings).config } (Bench.new controller).session :=
    ⟨⟨rfl, rfl, rfl, rfl, rfl⟩, rfl⟩
  have hnew : Refines (.new settings ⟨browser, []⟩) ((Bench.new controller).step .setUp).1 :=
    Refines.setUp (b := ⟨settings, .new .initial ⟨browser, []⟩, []⟩) hβ hstart rfl
  have hflights : (Background.new settings (⟨browser, []⟩ : Noted β)).session.flights = [] :=
    Session.performAll_flights ..
  have hrun : Refines page bench ∧ page.session.flights = [] ∧ Booked page :=
    refines_run hβ os hnew hflights (booked_new settings browser)
  obtain ⟨hrefines, hover, hbooked⟩ := hrun
  have hreplies := hrefines.mirrors.abreast.replies
  refine ⟨hrefines.mirrors.abreast, hrefines.mirrors.abreast.state, hrefines.mirrors.memory, ?_,
    hover, fun id hid => ?_⟩
  · rw [hbooked.replies, hreplies]
    rfl
  · exact hbooked.accounted id hid (by simp [Session.flight?, hover])

/-- On a small browser: the notification is shown, the panel is opened while its flag cannot be
stored and the badge takes no text, a tip goes out, and a question is answered. -/
theorem page_refines_controller_small :
    let ask : JsonMessage := ⟨.string "rewardsEnabled", "\"rewardsEnabled\"",
      by decide +kernel⟩
    let tip : JsonMessage := ⟨.object [("screenName", .string "ann"), ("name", .string "Ann"),
      ("type", .string "donateToTwitterUser"), ("tweetText", .string "hi"),
      ("userId", .string "7")],
      "\x7b\"screenName\":\"ann\",\"name\":\"Ann\",\"type\":\"donateToTwitterUser\"" ++
        ",\"tweetText\":\"hi\",\"userId\":\"7\"\x7d", by decide +kernel⟩
    let refusals : Change := .plan [.set (some panelOpenKey), .text] (some ⟨"out of order", []⟩)
    let os : List Occurrence := [.runtime (.installed "install"), .outside refusals,
      .runtime .connect, .outside (.tab (some ⟨some ⟨-7, by decide⟩⟩)), .message tip,
      .outside (.enabled true), .message ask]
    let start : Background (Noted SmallChrome) := .new none ⟨⟨.new [] none⟩, []⟩
    let page := os.foldl Background.undergo start
    Reliable SmallChrome ∧ page.session.state = .dismissed ∧ page.session.flights = [] ∧
      page.sent.map (fun s => (s.flight, s.value)) = [(3, .object [("enabled", .bool true)])] ∧
      (Kept.memory page.session.host.browser).items = [] ∧
      (Kept.memory page.session.host.browser).shown = some "1" ∧
      (Kept.memory page.session.host.browser).donations =
        [(⟨-7, by decide⟩, ⟨"7", "Ann", "ann", "hi"⟩)] := by
  intro ask tip refusals os start page
  obtain ⟨-, hstate, hmemory, hsent, hover, -⟩ :=
    page_refines_controller SmallChrome.reliable none ⟨.new [] none⟩ os
  let bench :=
    (os.foldl Bench.undergo ((Bench.new (.new (Config.load none).config (.new [] none))).step
      .setUp).1).session
  obtain ⟨hdismissed, hreplies, hitems, hshown, hdonations⟩ :
      bench.state = .dismissed ∧ bench.replies = [(3, ⟨true⟩)] ∧ bench.host.items = [] ∧
        bench.host.shown = some "1" ∧
        bench.host.donations = [(⟨-7, by decide⟩, ⟨"7", "Ann", "ann", "hi"⟩)] := by
    decide +kernel
  simp only [page, start]
  refine ⟨SmallChrome.reliable, hstate.trans hdismissed, hover, ?_, ?_, ?_, ?_⟩
  · rw [hsent]
    exact congrArg (List.map _) hreplies
  · rw [hmemory]
    exact hitems
  · rw [hmemory]
    exact hshown
  · rw [hmemory]
    exact hdonations

end Tipping
